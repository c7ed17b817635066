/-
# Muxly.Control.Outcome -- how an action ends, error and all

`Ends P m Q E`: from a state with `P`, the action `m` returns some `a` into a state with `Q a`, or
stops with some error `e` in a state with `E e`. It is what `Triple` says with the error in sight,
so a claim about which errors are possible, and about what each of them leaves, is one judgement.
The first section is the same for results that come without a state.
-/
import Mathlib.Init
import Muxly.Control.Action

namespace Muxly.Control

variable {σ ε α β : Type}

/-! ## Results -/

/-- A result that is no error, or an allowed one. -/
def StopsWith (allowed : ε → Prop) (x : Except ε α) : Prop := ∀ e, x = .error e → allowed e

section Results

variable {allowed : ε → Prop} {x : Except ε α}

theorem stopsWith_ok (a : α) : StopsWith allowed (.ok a : Except ε α) := by
  intro e h
  cases h

theorem stopsWith_error {e : ε} (h : allowed e) : StopsWith allowed (.error e : Except ε α) := by
  intro e' he
  cases he
  exact h

/-- The rest only runs on what the first part returned. -/
theorem StopsWith.bind {k : α → Except ε β} (hx : StopsWith allowed x)
    (hk : ∀ a, x = .ok a → StopsWith allowed (k a)) : StopsWith allowed (x >>= k) := by
  intro e he
  cases h : x with
  | error e' =>
      rw [h, error_bind] at he
      cases he
      exact hx e h
  | ok a =>
      rw [h, ok_bind] at he
      exact hk a h e he

/-- An allowed error, or a result with `Q`. -/
structure Delivers (allowed : ε → Prop) (x : Except ε α) (Q : α → Prop) : Prop where
  stops : StopsWith allowed x
  returns : ∀ a, x = .ok a → Q a

theorem delivers_ok {Q : α → Prop} {a : α} (h : Q a) :
    Delivers allowed (.ok a : Except ε α) Q where
  stops := stopsWith_ok a
  returns a' ha' := by
    cases ha'
    exact h

theorem delivers_error {Q : α → Prop} {e : ε} (h : allowed e) :
    Delivers allowed (.error e : Except ε α) Q where
  stops := stopsWith_error h
  returns a ha := by cases ha

theorem Delivers.bind {Q : α → Prop} {R : β → Prop} {k : α → Except ε β}
    (hx : Delivers allowed x Q) (hk : ∀ a, Q a → Delivers allowed (k a) R) :
    Delivers allowed (x >>= k) R where
  stops := hx.stops.bind fun a ha => (hk a (hx.returns a ha)).stops
  returns b hb := by
    obtain ⟨a, ha, hb⟩ := bind_eq_ok.mp hb
    exact (hk a (hx.returns a ha)).returns b hb

theorem StopsWith.delivers (h : StopsWith allowed x) : Delivers allowed x fun _ => True :=
  ⟨h, fun _ _ => trivial⟩

/-- A fold whose turns keep an invariant. -/
theorem delivers_foldlM {I : β → Prop} {f : β → α → Except ε β} {xs : List α} {b : β} (hb : I b)
    (hf : ∀ b, I b → ∀ a ∈ xs, Delivers allowed (f b a) I) : Delivers allowed (xs.foldlM f b) I := by
  induction xs generalizing b with
  | nil => exact delivers_ok hb
  | cons a rest ih =>
      rw [List.foldlM_cons]
      refine (hf b hb a (List.mem_cons_self ..)).bind fun b' hb' => ih hb' ?_
      intro b'' hb'' a' ha'
      exact hf b'' hb'' a' (List.mem_cons_of_mem _ ha')

theorem stopsWith_mapM {f : β → Except ε α} {xs : List β}
    (h : ∀ x ∈ xs, StopsWith allowed (f x)) : StopsWith allowed (xs.mapM f) := by
  induction xs with
  | nil => exact stopsWith_ok []
  | cons x rest ih =>
      rw [List.mapM_cons]
      refine (h x (List.mem_cons_self ..)).bind fun a _ => ?_
      exact (ih fun y hy => h y (List.mem_cons_of_mem _ hy)).bind fun _ _ => stopsWith_ok _

end Results

/-! ## Actions -/

namespace Action

/-- How `m` ends from a state with `P`. -/
structure Ends (P : σ → Prop) (m : Action σ ε α) (Q : α → σ → Prop) (E : ε → σ → Prop) : Prop where
  returns : ∀ s a s', P s → m s = (.ok a, s') → Q a s'
  stops : ∀ s e s', P s → m s = (.error e, s') → E e s'

section Rules

variable {P : σ → Prop} {m : Action σ ε α} {Q : α → σ → Prop} {E : ε → σ → Prop}

theorem Ends.mono {P' : σ → Prop} {Q' : α → σ → Prop} {E' : ε → σ → Prop} (h : Ends P m Q E)
    (hP : ∀ s, P' s → P s) (hQ : ∀ a s, Q a s → Q' a s) (hE : ∀ e s, E e s → E' e s) :
    Ends P' m Q' E' where
  returns s a s' hs hm := hQ a s' (h.returns s a s' (hP s hs) hm)
  stops s e s' hs hm := hE e s' (h.stops s e s' (hP s hs) hm)

theorem Ends.pre {P' : σ → Prop} (h : Ends P m Q E) (hP : ∀ s, P' s → P s) : Ends P' m Q E :=
  h.mono hP (fun _ _ hs => hs) fun _ _ hs => hs

/-- What is known of the one state it starts from. -/
theorem Ends.of_each (h : ∀ s, P s → Ends (fun s' => s' = s) m Q E) : Ends P m Q E where
  returns s a s' hs hm := (h s hs).returns s a s' rfl hm
  stops s e s' hs hm := (h s hs).stops s e s' rfl hm

/-- What holds of every state that it leaves. -/
theorem Ends.keep {I : σ → Prop} (h : Ends P m Q E) (hI : ∀ s, P s → I (m s).2) :
    Ends P m (fun a s => Q a s ∧ I s) fun e s => E e s ∧ I s where
  returns s a s' hs hm := ⟨h.returns s a s' hs hm, by simpa only [hm] using hI s hs⟩
  stops s e s' hs hm := ⟨h.stops s e s' hs hm, by simpa only [hm] using hI s hs⟩

theorem Ends.bind {R : β → σ → Prop} {k : α → Action σ ε β} (hm : Ends P m Q E)
    (hk : ∀ a, Ends (Q a) (k a) R E) : Ends P (m >>= k) R E where
  returns s b s' hs h := by
    rw [bind_apply] at h
    rcases hfirst : m s with ⟨e | a, t⟩
    · rw [hfirst] at h
      cases h
    · rw [hfirst, next_ok] at h
      exact (hk a).returns t b s' (hm.returns s a t hs hfirst) h
  stops s e s' hs h := by
    rw [bind_apply] at h
    rcases hfirst : m s with ⟨e' | a, t⟩
    · rw [hfirst, next_error] at h
      cases h
      exact hm.stops s e s' hs hfirst
    · rw [hfirst, next_ok] at h
      exact (hk a).stops t e s' (hm.returns s a t hs hfirst) h

theorem ends_pure {a : α} (h : ∀ s, P s → Q a s) : Ends P (pure a : Action σ ε α) Q E where
  returns s a' s' hs hm := by
    cases hm
    exact h s hs
  stops s e s' _ hm := by cases hm

theorem ends_throw {e : ε} (h : ∀ s, P s → E e s) : Ends P (throw e : Action σ ε α) Q E where
  returns s a s' _ hm := by cases hm
  stops s e' s' hs hm := by
    cases hm
    exact h s hs

theorem ends_modify {f : σ → σ} {Q : PUnit → σ → Prop} (h : ∀ s, P s → Q ⟨⟩ (f s)) :
    Ends P (modify f : Action σ ε PUnit) Q E where
  returns s a s' hs hm := by
    cases hm
    exact h s hs
  stops s e s' _ hm := by cases hm

theorem ends_view {f : σ → Except ε α} (hQ : ∀ s a, P s → f s = .ok a → Q a s)
    (hE : ∀ s e, P s → f s = .error e → E e s) : Ends P (view f) Q E where
  returns s a s' hs hm := by
    obtain ⟨hresult, rfl⟩ := Prod.mk.inj hm
    exact hQ s a hs hresult
  stops s e s' hs hm := by
    obtain ⟨hresult, rfl⟩ := Prod.mk.inj hm
    exact hE s e hs hresult

theorem ends_lift {r : Except ε α} (hQ : ∀ s a, P s → r = .ok a → Q a s)
    (hE : ∀ s e, P s → r = .error e → E e s) : Ends P (lift r) Q E := ends_view hQ hE

/-- A loop each of whose turns keeps what it starts from. -/
theorem ends_forM {f : α → Action σ ε PUnit} {xs : List α}
    (hf : ∀ x ∈ xs, Ends P (f x) (fun _ => P) E) : Ends P (xs.forM f) (fun _ => P) E := by
  induction xs with
  | nil => exact ends_pure fun _ hs => hs
  | cons x rest ih =>
      exact (hf x (List.mem_cons_self ..)).bind fun _ =>
        ih fun y hy => hf y (List.mem_cons_of_mem _ hy)

end Rules

end Action

end Muxly.Control
