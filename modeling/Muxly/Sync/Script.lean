/-
# Muxly.Sync.Script -- parties that call operations of a shared machine

A `Script` is the code of one party. It calls operations named by `ω`, branches on the Boolean that
each call returns, and ends with a result or with an error, as a function of type `!T` does. Cleanup
that a function registers for all of its exits, or only for its exits with an error, is part of the
script.

A `Machine` executes the operations on a shared state `σ`. A choice in `κ` stands for what the
outside decides, such as whether a write succeeds; an operation that cannot go on now has no step.
Every party also carries a phase in `φ` that never influences the run. `Machine.after` moves it, and
refuses the operations that the protocol of the party does not permit in this phase.

`Machine.Follows` says that a script never meets a refusal. It is computed over the script once for
each party, and `Reaches.invariant` then gives every preservation proof the phase of the party that
moves: an invariant of state and phases is shown operation by operation, with no script in sight.
-/
import Mathlib.Logic.Function.Basic

namespace Muxly.Sync

/-- The code of one party. -/
inductive Script (ω α : Type) where
  /-- Stop with a value, or with an error. -/
  | done (result : Option α)
  /-- Call `o` and go on with what it returns. -/
  | op (o : ω) (rest : Bool → Script ω α)

namespace Script

variable {ω α β γ : Type}

/-! ## Sequencing -/

/-- Continue with the result of `m`, whatever it is. -/
def bindResult : Script ω α → (Option α → Script ω β) → Script ω β
  | .done r, k => k r
  | .op o rest, k => .op o fun b => bindResult (rest b) k

/-- Continue with a value; an error skips the continuation. -/
def onValue (k : α → Script ω β) : Option α → Script ω β
  | some a => k a
  | none => .done none

instance : Monad (Script ω) where
  pure a := .done (some a)
  bind m k := bindResult m (onValue k)

/-- Stop with an error. -/
def fail : Script ω α := .done none

/-- Call `o` and ignore what it returns. -/
def perform (o : ω) : Script ω Unit := .op o fun _ => .done (some ())

/-- Call `o` for its answer. -/
def ask (o : ω) : Script ω Bool := .op o fun b => .done (some b)

/-- `try o`. -/
def attempt (o : ω) : Script ω Unit := .op o fun b => .done (if b then some () else none)

/-- `cleanup` runs on every exit of `body`. -/
def defers (cleanup : ω) (body : Script ω α) : Script ω α :=
  bindResult body fun r => .op cleanup fun _ => .done r

/-- `cleanup` runs on the exits of `body` with an error. -/
def errdefers (cleanup : ω) (body : Script ω α) : Script ω α :=
  bindResult body fun
    | some a => .done (some a)
    | none => .op cleanup fun _ => .done none

/-- Run `body` for every element of a list, in order. -/
def forEach (xs : List α) (body : α → Script ω Unit) : Script ω Unit :=
  match xs with
  | [] => .done (some ())
  | x :: rest => bindResult (body x) (onValue fun _ => forEach rest body)

@[simp] theorem bind_eq (m : Script ω α) (k : α → Script ω β) :
    (m >>= k) = bindResult m (onValue k) := rfl

@[simp] theorem pure_eq (a : α) : (pure a : Script ω α) = .done (some a) := rfl

end Script

/-! ## Machines -/

/-- How the operations act on the shared state, and how they move the phase of their caller. -/
structure Machine (π ω κ σ φ : Type) where
  /-- One call by a party: what it returns and the state it leaves, unless it has to wait. -/
  exec : π → ω → κ → σ → Option (Bool × σ)
  /-- The phase after a call that returned a Boolean, unless the protocol refuses the call. -/
  after : π → φ → ω → Bool → Option φ

/-- A state of a run. -/
structure Machine.Config (π ω σ φ : Type) where
  state : σ
  phase : π → φ
  script : π → Script ω Unit

namespace Machine

variable {π ω κ σ φ α β : Type} (M : Machine π ω κ σ φ)

/-- No call of the script is refused from phase `f` on; it ends in `Q`. -/
def Follows (p : π) (f : φ) : Script ω α → (Option α → φ → Prop) → Prop
  | .done r, Q => Q r f
  | .op o rest, Q => ∀ b, ∃ f', M.after p f o b = some f' ∧ Follows p f' (rest b) Q

section Rules

variable {M} {p : π} {f : φ}

@[simp] theorem follows_done (r : Option α) (Q : Option α → φ → Prop) :
    M.Follows p f (.done r) Q ↔ Q r f := Iff.rfl

theorem follows_op (o : ω) (rest : Bool → Script ω α) (Q : Option α → φ → Prop) :
    M.Follows p f (.op o rest) Q ↔
      ∀ b, ∃ f', M.after p f o b = some f' ∧ M.Follows p f' (rest b) Q := Iff.rfl

theorem Follows.mono {m : Script ω α} {Q Q' : Option α → φ → Prop}
    (h : M.Follows p f m Q) (hQ : ∀ r f', Q r f' → Q' r f') : M.Follows p f m Q' := by
  induction m generalizing f with
  | done r => exact hQ r f h
  | op o rest ih =>
      intro b
      obtain ⟨f', hf', hrest⟩ := h b
      exact ⟨f', hf', ih b hrest⟩

theorem follows_bindResult (m : Script ω α) (k : Option α → Script ω β)
    (Q : Option β → φ → Prop) :
    M.Follows p f (Script.bindResult m k) Q ↔
      M.Follows p f m fun r f' => M.Follows p f' (k r) Q := by
  induction m generalizing f with
  | done r => rfl
  | op o rest ih => simp only [Script.bindResult, follows_op, ih]

/-- A script of which a specification is known, and what follows it. -/
theorem Follows.bindResult {m : Script ω α} {k : Option α → Script ω β}
    {R : Option α → φ → Prop} {Q : Option β → φ → Prop} (hm : M.Follows p f m R)
    (hk : ∀ r f', R r f' → M.Follows p f' (k r) Q) :
    M.Follows p f (Script.bindResult m k) Q :=
  (follows_bindResult m k Q).mpr (hm.mono hk)

theorem follows_perform (o : ω) (Q : Option Unit → φ → Prop) :
    M.Follows p f (Script.perform o) Q ↔ ∀ b, ∃ f', M.after p f o b = some f' ∧ Q (some ()) f' :=
  Iff.rfl

theorem follows_ask (o : ω) (Q : Option Bool → φ → Prop) :
    M.Follows p f (Script.ask o) Q ↔ ∀ b, ∃ f', M.after p f o b = some f' ∧ Q (some b) f' :=
  Iff.rfl

theorem follows_attempt (o : ω) (Q : Option Unit → φ → Prop) :
    M.Follows p f (Script.attempt o) Q ↔
      ∀ b, ∃ f', M.after p f o b = some f' ∧ Q (if b then some () else none) f' := Iff.rfl

/-- A call whose answer is ignored, and what follows it. -/
theorem Follows.perform_bind {o : ω} {k : Unit → Script ω α} {Q : Option α → φ → Prop} (f' : φ)
    (hafter : ∀ b, M.after p f o b = some f') (hk : M.Follows p f' (k ()) Q) :
    M.Follows p f (Script.perform o >>= k) Q :=
  fun b => ⟨f', hafter b, hk⟩

/-- A question, and what follows either answer. -/
theorem Follows.ask_bind {o : ω} {k : Bool → Script ω α} {Q : Option α → φ → Prop}
    (h : ∀ b, ∃ f', M.after p f o b = some f' ∧ M.Follows p f' (k b) Q) :
    M.Follows p f (Script.ask o >>= k) Q := h

/-- A call that may fail, and what follows when it does not. -/
theorem Follows.attempt_bind {o : ω} {k : Unit → Script ω α} {Q : Option α → φ → Prop} {g : φ}
    (hafter : M.after p f o true = some g) (hk : M.Follows p g (k ()) Q)
    (hfail : ∃ f', M.after p f o false = some f' ∧ Q none f') :
    M.Follows p f (Script.attempt o >>= k) Q
  | true => ⟨g, hafter, hk⟩
  | false => hfail

/-- A script of which a specification is known, and what follows its value. -/
theorem Follows.bind {m : Script ω α} {k : α → Script ω β} {R : Option α → φ → Prop}
    {Q : Option β → φ → Prop} (hm : M.Follows p f m R)
    (hk : ∀ a f', R (some a) f' → M.Follows p f' (k a) Q)
    (hfail : ∀ f', R none f' → Q none f') : M.Follows p f (m >>= k) Q := by
  refine hm.bindResult fun r f' hr => ?_
  cases r with
  | some a => exact hk a f' hr
  | none => exact hfail f' hr

/-- Every exit of the body permits the cleanup. -/
theorem Follows.defers {cleanup : ω} {body : Script ω α} {R Q : Option α → φ → Prop}
    (hbody : M.Follows p f body R)
    (hcleanup : ∀ r f', R r f' → ∀ b, ∃ f'', M.after p f' cleanup b = some f'' ∧ Q r f'') :
    M.Follows p f (Script.defers cleanup body) Q :=
  hbody.bindResult hcleanup

/-- Every exit of the body with an error permits the cleanup. -/
theorem Follows.errdefers {cleanup : ω} {body : Script ω α} {R Q : Option α → φ → Prop}
    (hbody : M.Follows p f body R) (hvalue : ∀ a f', R (some a) f' → Q (some a) f')
    (hcleanup : ∀ f', R none f' → ∀ b, ∃ f'', M.after p f' cleanup b = some f'' ∧ Q none f'') :
    M.Follows p f (Script.errdefers cleanup body) Q := by
  refine hbody.bindResult fun r f' hr => ?_
  cases r with
  | some a => exact hvalue a f' hr
  | none => exact hcleanup f' hr

/-- Every turn keeps `I`; an error ends the loop in `E`. -/
theorem follows_forEach {xs : List α} {body : α → Script ω Unit} {I : φ → Prop}
    {Q : Option Unit → φ → Prop}
    (hbody : ∀ x ∈ xs, ∀ f, I f → M.Follows p f (body x) fun r f' =>
      match r with
      | some () => I f'
      | none => Q none f')
    (hend : ∀ f, I f → Q (some ()) f) (hf : I f) :
    M.Follows p f (Script.forEach xs body) Q := by
  induction xs generalizing f with
  | nil => exact hend f hf
  | cons x rest ih =>
      refine (hbody x (List.mem_cons_self ..) f hf).bindResult fun r f' hr => ?_
      cases r with
      | none => exact hr
      | some u => exact ih (fun y hy => hbody y (List.mem_cons_of_mem _ hy)) hr

end Rules

/-! ## Runs -/

namespace Config

variable [DecidableEq π] (c : Config π ω σ φ)

/-- The state after party `p` has called `o`, which returned `b` and left `s`. -/
def advance (p : π) (o : ω) (rest : Bool → Script ω Unit) (b : Bool) (s : σ) : Config π ω σ φ where
  state := s
  phase := Function.update c.phase p ((M.after p (c.phase p) o b).getD (c.phase p))
  script := Function.update c.script p (rest b)

/-- The operation that a party calls next. -/
def next (p : π) : Option ω :=
  match c.script p with
  | .done _ => none
  | .op o _ => some o

/-- Follow a schedule of steps that satisfy `cond`: who moves at each step, and what the outside
decides. A step that cannot be taken ends the run. -/
def follow (cond : π → ω → Bool → σ → Prop) [∀ p o b s, Decidable (cond p o b s)]
    (c : Config π ω σ φ) : List (π × κ) → Option (Config π ω σ φ)
  | [] => some c
  | (p, choice) :: schedule =>
    match c.script p with
    | .done _ => none
    | .op o rest =>
      match M.exec p o choice c.state with
      | none => none
      | some (b, s) =>
        if cond p o b c.state then (c.advance M p o rest b s).follow cond schedule else none

end Config

variable [DecidableEq π]

/-- What one step is made of. -/
structure Steps (c c' : Config π ω σ φ) (p : π) (o : ω) (choice : κ) (b : Bool) : Prop where
  exec : M.exec p o choice c.state = some (b, c'.state)
  phase : c'.phase = Function.update c.phase p ((M.after p (c.phase p) o b).getD (c.phase p))
  script : ∃ rest, c.script p = .op o rest ∧ c'.script = Function.update c.script p (rest b)

/-- A party whose next operation can be carried out takes a step. -/
theorem Steps.of_next {c : Config π ω σ φ} {p : π} {o : ω} (choice : κ) {b : Bool} {s : σ}
    (hnext : c.next p = some o) (hexec : M.exec p o choice c.state = some (b, s)) :
    ∃ c', M.Steps c c' p o choice b ∧ c'.state = s := by
  unfold Config.next at hnext
  split at hnext
  · cases hnext
  · rename_i o rest hscript
    cases hnext
    exact ⟨c.advance M p o rest b s, ⟨hexec, rfl, rest, hscript, rfl⟩, rfl⟩

/-- The states that the runs from `start` reach, over the steps that satisfy `cond`: a condition on
the caller, its call, what the call returned and the state before it. -/
inductive Reaches (cond : π → ω → Bool → σ → Prop) (start : Config π ω σ φ) :
    Config π ω σ φ → Prop
  | refl : Reaches cond start start
  | step {c c' : Config π ω σ φ} {p : π} {o : ω} {choice : κ} {b : Bool} :
      Reaches cond start c → M.Steps c c' p o choice b → cond p o b c.state →
      Reaches cond start c'

/-- The condition that admits every step. -/
def anyStep : π → ω → Bool → σ → Prop := fun _ _ _ _ => True

variable {M} {cond : π → ω → Bool → σ → Prop} {start c c' : Config π ω σ φ}

instance : ∀ (p : π) (o : ω) (b : Bool) (s : σ), Decidable (anyStep p o b s) :=
  fun _ _ _ _ => .isTrue trivial

/-- A schedule that can be followed to its end reaches the state it ends in. -/
theorem Reaches.of_follow [∀ p o b s, Decidable (cond p o b s)] (schedule : List (π × κ))
    (hc : M.Reaches cond start c) (h : c.follow M cond schedule = some c') :
    M.Reaches cond start c' := by
  induction schedule generalizing c with
  | nil =>
      simp only [Config.follow, Option.some.injEq] at h
      exact h ▸ hc
  | cons move schedule ih =>
      unfold Config.follow at h
      split at h
      · cases h
      · rename_i o rest hscript
        split at h
        · cases h
        · rename_i b s hexec
          split at h
          · rename_i hcond
            exact ih (hc.step ⟨hexec, rfl, rest, hscript, rfl⟩ hcond) h
          · cases h

variable (cond start)

/-- A run that ends in a state that passes a test. -/
theorem Reaches.exists_of_follow [∀ p o b s, Decidable (cond p o b s)] (schedule : List (π × κ))
    (test : Config π ω σ φ → Bool) (h : (start.follow M cond schedule).any test = true) :
    ∃ c, M.Reaches cond start c ∧ test c = true := by
  obtain ⟨c, hc, htest⟩ := (Option.any_eq_true ..).mp h
  exact ⟨c, .of_follow schedule .refl hc, htest⟩

variable {cond start}

/-- A stricter condition admits fewer runs. -/
theorem Reaches.mono {cond' : π → ω → Bool → σ → Prop} (h : M.Reaches cond start c)
    (himp : ∀ p o b s, cond p o b s → cond' p o b s) : M.Reaches cond' start c := by
  induction h with
  | refl => exact .refl
  | step _ hstep hcond ih => exact ih.step hstep (himp _ _ _ _ hcond)

/-- The runs from `start` over the steps that satisfy `cond`, with what `record` notes of each step:
of the caller, its call, what the call returned and the state before it. -/
inductive Recorded {ε : Type} (cond : π → ω → Bool → σ → Prop)
    (record : π → ω → Bool → σ → Option ε) (start : Config π ω σ φ) :
    List ε → Config π ω σ φ → Prop
  | refl : Recorded cond record start [] start
  | step {log : List ε} {c c' : Config π ω σ φ} {p : π} {o : ω} {choice : κ} {b : Bool} :
      Recorded cond record start log c → M.Steps c c' p o choice b → cond p o b c.state →
      Recorded cond record start (log ++ (record p o b c.state).toList) c'

section Recorded

variable {ε : Type} {record : π → ω → Bool → σ → Option ε} {log : List ε}

theorem Recorded.reaches (h : M.Recorded cond record start log c) : M.Reaches cond start c := by
  induction h with
  | refl => exact .refl
  | step _ hstep hcond ih => exact ih.step hstep hcond

/-- Every run has its log. -/
theorem Reaches.recorded (h : M.Reaches cond start c) (record : π → ω → Bool → σ → Option ε) :
    ∃ log, M.Recorded cond record start log c := by
  induction h with
  | refl => exact ⟨[], .refl⟩
  | step _ hstep hcond ih =>
      obtain ⟨log, hlog⟩ := ih
      exact ⟨_, hlog.step hstep hcond⟩

end Recorded

/-- What every script still has to do follows its protocol. -/
def Conforms (M : Machine π ω κ σ φ) (Q : π → Option Unit → φ → Prop) (c : Config π ω σ φ) : Prop :=
  ∀ p, M.Follows p (c.phase p) (c.script p) (Q p)

variable {Q : π → Option Unit → φ → Prop}

/-- In a conforming state the protocol permits the step that is taken. -/
theorem Conforms.permits (hc : M.Conforms Q c) {p : π} {o : ω} {choice : κ} {b : Bool}
    (h : M.Steps c c' p o choice b) :
    ∃ f', M.after p (c.phase p) o b = some f' ∧ c'.phase = Function.update c.phase p f' := by
  obtain ⟨rest, hscript, -⟩ := h.script
  have hp := hc p
  rw [hscript] at hp
  obtain ⟨f', hf', -⟩ := hp b
  refine ⟨f', hf', ?_⟩
  rw [h.phase, hf', Option.getD_some]

theorem Conforms.steps (hc : M.Conforms Q c) {p : π} {o : ω} {choice : κ} {b : Bool}
    (h : M.Steps c c' p o choice b) : M.Conforms Q c' := by
  obtain ⟨f', hf', hphase⟩ := hc.permits h
  obtain ⟨rest, hscript, hscript'⟩ := h.script
  intro q
  rw [hphase, hscript']
  by_cases hq : q = p
  · subst hq
    have hp := hc q
    rw [hscript] at hp
    obtain ⟨f'', hf'', hrest⟩ := hp b
    rw [hf'] at hf''
    cases hf''
    simpa using hrest
  · simpa [hq] using hc q

theorem Reaches.conforms (h : M.Reaches cond start c) (hstart : M.Conforms Q start) :
    M.Conforms Q c := by
  induction h with
  | refl => exact hstart
  | step _ hstep _ ih => exact ih.steps hstep

/-- An invariant of the state and the phases, shown operation by operation. -/
theorem Reaches.invariant {I : σ → (π → φ) → Prop} (h : M.Reaches cond start c)
    (hconforms : M.Conforms Q start) (hstart : I start.state start.phase)
    (hstep : ∀ s phase p o choice b s' f', I s phase → M.exec p o choice s = some (b, s') →
      M.after p (phase p) o b = some f' → cond p o b s → I s' (Function.update phase p f')) :
    I c.state c.phase := by
  induction h with
  | refl => exact hstart
  | step hreach hsteps hcond ih =>
      obtain ⟨f', hf', hphase⟩ := (hreach.conforms hconforms).permits hsteps
      rw [hphase]
      exact hstep _ _ _ _ _ _ _ _ ih hsteps.exec hf' hcond

/-- An invariant of the log, the state and the phases. -/
theorem Recorded.invariant {ε : Type} {record : π → ω → Bool → σ → Option ε} {log : List ε}
    {I : List ε → σ → (π → φ) → Prop} (h : M.Recorded cond record start log c)
    (hconforms : M.Conforms Q start) (hstart : I [] start.state start.phase)
    (hstep : ∀ log s phase p o choice b s' f', I log s phase →
      M.exec p o choice s = some (b, s') → M.after p (phase p) o b = some f' → cond p o b s →
      I (log ++ (record p o b s).toList) s' (Function.update phase p f')) :
    I log c.state c.phase := by
  induction h with
  | refl => exact hstart
  | step hrun hsteps hcond ih =>
      obtain ⟨f', hf', hphase⟩ := (hrun.reaches.conforms hconforms).permits hsteps
      rw [hphase]
      exact hstep _ _ _ _ _ _ _ _ _ ih hsteps.exec hf' hcond

end Machine

end Muxly.Sync
