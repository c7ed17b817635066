/-
# Muxly.Control.Action -- code that may fail and keeps the state on failure

An `Action` runs on a state and returns a result together with the state it leaves. An error stops
the rest but does not undo what was done before it. `Advances` is the progress rule: an invariant
that every part of an action keeps, while the state moves along a relation that chains, is kept by
the whole of it, on success and on failure.
-/
import Mathlib.Init

namespace Muxly.Control

/-! ## Results -/

@[simp] theorem ok_bind {ε α β : Type} (a : α) (f : α → Except ε β) :
    (Except.ok a >>= f) = f a := rfl

@[simp] theorem error_bind {ε α β : Type} (e : ε) (f : α → Except ε β) :
    (Except.error e >>= f) = .error e := rfl

/-- What the parts of a sequence returned. -/
theorem bind_eq_ok {ε α β : Type} {x : Except ε α} {f : α → Except ε β} {b : β} :
    (x >>= f) = .ok b ↔ ∃ a, x = .ok a ∧ f a = .ok b := by
  cases x with
  | error e => simp [error_bind]
  | ok a => simp [ok_bind]

theorem pure_eq_ok {ε α : Type} (a : α) : (pure a : Except ε α) = .ok a := rfl

theorem throw_eq_error {ε α : Type} (e : ε) : (throw e : Except ε α) = .error e := rfl

section Loops

variable {ε α : Type} {f : α → Except ε Bool} {g : α → Bool} {xs : List α}

/-- A search none of whose tests fails is a search. -/
theorem anyM_ok (h : ∀ x ∈ xs, f x = .ok (g x)) : xs.anyM f = .ok (xs.any g) := by
  induction xs with
  | nil => rfl
  | cons x rest ih =>
      rw [List.anyM, h x (List.mem_cons_self ..), List.any_cons]
      cases g x with
      | true => rfl
      | false => exact ih fun y hy => h y (List.mem_cons_of_mem _ hy)

/-- A filter none of whose tests fails is a filter. -/
theorem filterM_ok (h : ∀ x ∈ xs, f x = .ok (g x)) : xs.filterM f = .ok (xs.filter g) := by
  suffices hacc : ∀ (ys acc : List α), (∀ y ∈ ys, f y = .ok (g y)) →
      ys.filterAuxM f acc = .ok ((ys.filter g).reverse ++ acc) by
    rw [List.filterM, hacc xs [] h]
    simp [pure_eq_ok]
  intro ys
  induction ys with
  | nil => intro acc _; rfl
  | cons y rest ih =>
      intro acc hall
      rw [List.filterAuxM, hall y (List.mem_cons_self ..), ok_bind,
        ih _ fun z hz => hall z (List.mem_cons_of_mem _ hz)]
      cases hg : g y <;> simp [hg]

/-- A search for the first hit none of whose tests fails. -/
theorem findM?_ok (h : ∀ x ∈ xs, f x = .ok (g x)) : xs.findM? f = .ok (xs.find? g) := by
  induction xs with
  | nil => rfl
  | cons x rest ih =>
      rw [List.findM?, h x (List.mem_cons_self ..), List.find?_cons]
      cases g x with
      | true => rfl
      | false => exact ih fun y hy => h y (List.mem_cons_of_mem _ hy)

/-- What a search returns was in the list. -/
theorem mem_of_findM? {x : α} (h : xs.findM? f = .ok (some x)) : x ∈ xs := by
  induction xs with
  | nil => cases h
  | cons y rest ih =>
      rw [List.findM?] at h
      cases hy : f y with
      | error e =>
          rw [hy] at h
          cases h
      | ok b =>
          rw [hy, ok_bind] at h
          cases b with
          | true =>
              cases h
              exact List.mem_cons_self ..
          | false => exact List.mem_cons_of_mem _ (ih h)

/-- What a search returns passed the test. -/
theorem test_of_findM? {x : α} (h : xs.findM? f = .ok (some x)) : f x = .ok true := by
  induction xs with
  | nil => cases h
  | cons y rest ih =>
      rw [List.findM?] at h
      cases hy : f y with
      | error e =>
          rw [hy] at h
          cases h
      | ok b =>
          rw [hy, ok_bind] at h
          cases b with
          | true =>
              cases h
              exact hy
          | false => exact ih h

/-- A loop none of whose turns fails. -/
theorem forM_ok {f : α → Except ε PUnit} (h : ∀ x ∈ xs, f x = .ok ⟨⟩) : xs.forM f = .ok ⟨⟩ := by
  induction xs with
  | nil => rfl
  | cons x rest ih =>
      have hrest := ih fun y hy => h y (List.mem_cons_of_mem _ hy)
      show (f x >>= fun _ => rest.forM f) = _
      rw [h x (List.mem_cons_self ..)]
      exact hrest

end Loops

/-! ## Actions -/

/-- Code on a state `σ` that returns an `α` or stops with an `ε`. -/
def Action (σ ε α : Type) : Type := σ → Except ε α × σ

namespace Action

variable {σ ε α β : Type}

instance : Monad (Action σ ε) where
  pure a := fun s => (.ok a, s)
  bind m k := fun s =>
    match m s with
    | (.ok a, s') => k a s'
    | (.error e, s') => (.error e, s')

instance : MonadExcept ε (Action σ ε) where
  throw e := fun s => (.error e, s)
  tryCatch m handler := fun s =>
    match m s with
    | (.ok a, s') => (.ok a, s')
    | (.error e, s') => handler e s'

instance : MonadStateOf σ (Action σ ε) where
  get := fun s => (.ok s, s)
  set s := fun _ => (.ok (), s)
  modifyGet f := fun s => (.ok (f s).1, (f s).2)

/-- Look at the state without changing it. -/
def view (f : σ → Except ε α) : Action σ ε α := fun s => (f s, s)

/-- A result that does not depend on the state. -/
def lift (r : Except ε α) : Action σ ε α := fun s => (r, s)

/-- What follows a first part. -/
def next (k : α → Action σ ε β) : Except ε α × σ → Except ε β × σ
  | (.ok a, s) => k a s
  | (.error e, s) => (.error e, s)

theorem bind_apply (m : Action σ ε α) (k : α → Action σ ε β) (s : σ) :
    (m >>= k) s = next k (m s) := by
  show (match m s with
    | (.ok a, s') => k a s'
    | (.error e, s') => (.error e, s')) = next k (m s)
  rcases m s with ⟨_ | _, _⟩ <;> rfl

@[simp] theorem next_ok (k : α → Action σ ε β) (a : α) (s : σ) : next k (.ok a, s) = k a s := rfl

@[simp] theorem next_error (k : α → Action σ ε β) (e : ε) (s : σ) :
    next k (.error e, s) = (.error e, s) := rfl

theorem pure_apply (a : α) (s : σ) : (pure a : Action σ ε α) s = (.ok a, s) := rfl

theorem throw_apply (e : ε) (s : σ) : (throw e : Action σ ε α) s = (.error e, s) := rfl

theorem tryCatch_apply (m : Action σ ε α) (handler : ε → Action σ ε α) (s : σ) :
    (tryCatch m handler : Action σ ε α) s =
      match m s with
      | (.ok a, s') => (.ok a, s')
      | (.error e, s') => handler e s' := rfl

theorem modify_apply (f : σ → σ) (s : σ) : (modify f : Action σ ε PUnit) s = (.ok ⟨⟩, f s) := rfl

theorem get_apply (s : σ) : (get : Action σ ε σ) s = (.ok s, s) := rfl

theorem view_apply (f : σ → Except ε α) (s : σ) : view f s = (f s, s) := rfl

theorem lift_apply (r : Except ε α) (s : σ) : (lift r : Action σ ε α) s = (r, s) := rfl

theorem forM_nil_apply (f : α → Action σ ε PUnit) (s : σ) : [].forM f s = (.ok ⟨⟩, s) := rfl

theorem forM_cons_apply (f : α → Action σ ε PUnit) (x : α) (xs : List α) (s : σ) :
    (x :: xs).forM f s = next (fun _ => xs.forM f) (f x s) := bind_apply _ _ s

/-! ## Progress -/

/-- A relation that may hold between a state and itself, and chains. -/
structure Progress (R : σ → σ → Prop) : Prop where
  refl : ∀ s, R s s
  trans : ∀ {a b c}, R a b → R b c → R a c

/-- From a state with `P`, whether it succeeds or fails, `m` leaves a state with `P` that is later
in `R`. -/
def Advances (P : σ → Prop) (R : σ → σ → Prop) (m : Action σ ε α) : Prop :=
  ∀ s, P s → P (m s).2 ∧ R s (m s).2

variable {P : σ → Prop} {R : σ → σ → Prop}

theorem advances_of_unchanged (hR : Progress R) {m : Action σ ε α} (h : ∀ s, (m s).2 = s) :
    Advances P R m := by
  intro s hs
  rw [h s]
  exact ⟨hs, hR.refl s⟩

theorem advances_pure (hR : Progress R) (a : α) : Advances P R (pure a : Action σ ε α) :=
  advances_of_unchanged hR fun _ => rfl

theorem advances_throw (hR : Progress R) (e : ε) : Advances P R (throw e : Action σ ε α) :=
  advances_of_unchanged hR fun _ => rfl

/-- What follows an error never runs. -/
theorem advances_throw_bind (hR : Progress R) (e : ε) (k : α → Action σ ε β) :
    Advances P R ((throw e : Action σ ε α) >>= k) :=
  advances_of_unchanged hR fun _ => rfl

theorem advances_view (hR : Progress R) (f : σ → Except ε α) : Advances P R (view f) :=
  advances_of_unchanged hR fun _ => rfl

theorem advances_lift (hR : Progress R) (r : Except ε α) :
    Advances P R (lift r : Action σ ε α) :=
  advances_of_unchanged hR fun _ => rfl

/-- The rest may use what the first part returned and the state it left. -/
theorem Advances.bind_of (hR : Progress R) {m : Action σ ε α} {k : α → Action σ ε β}
    (hm : Advances P R m)
    (hk : ∀ s a s', P s → m s = (Except.ok a, s') → P s' → P (k a s').2 ∧ R s' (k a s').2) :
    Advances P R (m >>= k) := by
  intro s hs
  have hs' := hm s hs
  rw [bind_apply]
  rcases h : m s with ⟨_ | a, s'⟩
  · rw [h] at hs'
    exact hs'
  · rw [h] at hs'
    have hrest := hk s a s' hs h hs'.1
    exact ⟨hrest.1, hR.trans hs'.2 hrest.2⟩

theorem Advances.bind (hR : Progress R) {m : Action σ ε α} {k : α → Action σ ε β}
    (hm : Advances P R m) (hk : ∀ a, Advances P R (k a)) : Advances P R (m >>= k) :=
  hm.bind_of hR fun _ a s' _ _ hs' => hk a s' hs'

theorem Advances.tryCatch (hR : Progress R) {m : Action σ ε α} {handler : ε → Action σ ε α}
    (hm : Advances P R m) (hh : ∀ e, Advances P R (handler e)) :
    Advances P R (tryCatch m handler) := by
  intro s hs
  have hs' := hm s hs
  rw [tryCatch_apply]
  rcases h : m s with ⟨e | a, s'⟩
  · rw [h] at hs'
    have hrest := hh e s' hs'.1
    exact ⟨hrest.1, hR.trans hs'.2 hrest.2⟩
  · rw [h] at hs'
    exact hs'

theorem Advances.forM_of (hR : Progress R) {f : α → Action σ ε PUnit} {xs : List α}
    (hf : ∀ x ∈ xs, Advances P R (f x)) : Advances P R (xs.forM f) := by
  induction xs with
  | nil => exact advances_pure hR _
  | cons x rest ih =>
      exact (hf x (List.mem_cons_self ..)).bind hR fun _ =>
        ih fun y hy => hf y (List.mem_cons_of_mem _ hy)

/-- Any two states are in this relation: what is left of `Advances` is the invariant. -/
theorem always_progress : Progress fun _ _ : σ => True := ⟨fun _ => trivial, fun _ _ => trivial⟩

/-- `m` keeps `P`, whether it succeeds or fails. -/
abbrev Keeps (P : σ → Prop) (m : Action σ ε α) : Prop := Advances P (fun _ _ => True) m

theorem keeps_of {m : Action σ ε α} (h : ∀ s, P s → P (m s).2) : Keeps P m :=
  fun s hs => ⟨h s hs, trivial⟩

theorem Advances.foldlM (hR : Progress R) {f : β → α → Action σ ε β}
    (hf : ∀ b a, Advances P R (f b a)) (xs : List α) (b : β) : Advances P R (xs.foldlM f b) := by
  induction xs generalizing b with
  | nil => exact advances_pure hR b
  | cons x rest ih => exact (hf b x).bind hR fun b' => ih b'

end Action

end Muxly.Control
