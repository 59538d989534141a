import Mathlib.Logic.Basic

/-!
# Programs that fail and keep their state

A program maps a state to an outcome and the state it leaves behind, also when
it fails. The rules below compose three kinds of facts: `Triple`, a
precondition with one postcondition for results and one for errors,
`Keeps`, a reflexive and transitive relation between the states before and
after, and `Agrees`, for two runs of a program from related states. States,
errors and results are parameters.
-/

set_option autoImplicit false

namespace Whoisthat.FallibleState

variable {σ ε α β : Type}

def Prog (σ ε α : Type) : Type := σ → Except ε α × σ

instance : Monad (Prog σ ε) where
  pure a := fun s => (.ok a, s)
  bind m f := fun s =>
    match m s with
    | (.ok a, s') => f a s'
    | (.error e, s') => (.error e, s')

def fail (e : ε) : Prog σ ε α := fun s => (.error e, s)

def get : Prog σ ε σ := fun s => (.ok s, s)

def modify (f : σ → σ) : Prog σ ε Unit := fun s => (.ok (), f s)

/-- Run a program and hand its outcome on, failed or not. -/
def attempt (m : Prog σ ε α) : Prog σ ε (Except ε α) := fun s =>
  (.ok (m s).1, (m s).2)

def forEach (f : α → Prog σ ε Unit) : List α → Prog σ ε Unit
  | [] => pure ()
  | a::as => do
    f a
    forEach f as

def when (c : Bool) (m : Prog σ ε Unit) : Prog σ ε Unit := if c then m else pure ()

@[simp] theorem pure_run (a : α) (s : σ) : (pure a : Prog σ ε α) s = (.ok a, s) := rfl

@[simp] theorem fail_run (e : ε) (s : σ) : (fail e : Prog σ ε α) s = (.error e, s) := rfl

@[simp] theorem get_run (s : σ) : (get : Prog σ ε σ) s = (.ok s, s) := rfl

@[simp] theorem modify_run (f : σ → σ) (s : σ) :
    (modify f : Prog σ ε Unit) s = (.ok (), f s) := rfl

@[simp] theorem attempt_run (m : Prog σ ε α) (s : σ) :
    attempt m s = (.ok (m s).1, (m s).2) := rfl

theorem bind_run (m : Prog σ ε α) (f : α → Prog σ ε β) (s : σ) :
    (m >>= f) s = match m s with
      | (.ok a, s') => f a s'
      | (.error e, s') => (.error e, s') := rfl

theorem bind_of_ok {m : Prog σ ε α} {f : α → Prog σ ε β} {s s' : σ} {a : α}
    (h : m s = (.ok a, s')) : (m >>= f) s = f a s' := by
  rw [bind_run, h]

theorem bind_of_error {m : Prog σ ε α} {f : α → Prog σ ε β} {s s' : σ} {e : ε}
    (h : m s = (.error e, s')) : (m >>= f) s = (.error e, s') := by
  rw [bind_run, h]

theorem bind_ok {m : Prog σ ε α} {f : α → Prog σ ε β} {s s' : σ} {b : β}
    (h : (m >>= f) s = (.ok b, s')) :
    ∃ a t, m s = (.ok a, t) ∧ f a t = (.ok b, s') := by
  rw [bind_run] at h
  split at h
  · exact ⟨_, _, by assumption, h⟩
  · simp at h

theorem run_of_fst {m : Prog σ ε α} {s : σ} {r : Except ε α} (h : (m s).1 = r) :
    m s = (r,(m s).2) := Prod.ext h rfl

theorem exists_ok {m : Prog σ ε α} {s : σ} (h : (m s).1.toOption.isSome) :
    ∃ a, m s = (.ok a,(m s).2) := by
  rcases hm : m s with ⟨e | a,s'⟩
  · simp [hm,Except.toOption] at h
  · exact ⟨a,rfl⟩

section Triples

/-- From states in `P`, results satisfy `Q` and errors satisfy `E`. -/
def Triple (P : σ → Prop) (m : Prog σ ε α) (Q : α → σ → Prop) (E : ε → σ → Prop) : Prop :=
  ∀ s, P s → match m s with
    | (.ok a, s') => Q a s'
    | (.error e, s') => E e s'

variable {P P' : σ → Prop} {Q Q' : α → σ → Prop} {E E' : ε → σ → Prop}

theorem triple_pure (a : α) (h : ∀ s, P s → Q a s) :
    Triple P (pure a : Prog σ ε α) Q E := fun s hs => h s hs

/-- A postcondition on the state alone holds of every outcome. -/
theorem triple_of_state {m : Prog σ ε α} {I : σ → Prop} (h : ∀ s, P s → I (m s).2) :
    Triple P m (fun _ => I) (fun _ => I) := by
  intro s hs
  have hk := h s hs
  rcases hm : m s with ⟨e | a,t⟩ <;> rw [hm] at hk <;> exact hk

theorem triple_state {m : Prog σ ε α} {I : σ → Prop}
    (h : Triple P m (fun _ => I) (fun _ => I)) {s : σ} (hs : P s) : I (m s).2 := by
  have hm := h s hs
  rcases hr : m s with ⟨e | a,t⟩ <;> rw [hr] at hm <;> exact hm

theorem triple_error {m : Prog σ ε α} (h : Triple P m Q E) {s t : σ} {e : ε} (hs : P s)
    (hr : m s = (.error e,t)) : E e t := by
  have hm := h s hs
  rwa [hr] at hm

theorem triple_fail (e : ε) (h : ∀ s, P s → E e s) :
    Triple P (fail e : Prog σ ε α) Q E := fun s hs => h s hs

theorem triple_bind {m : Prog σ ε α} {f : α → Prog σ ε β} {R : β → σ → Prop}
    (hm : Triple P m Q E) (hf : ∀ a, Triple (Q a) (f a) R E) :
    Triple P (m >>= f) R E := by
  intro s hs
  have h := hm s hs
  rw [bind_run]
  rcases hms : m s with ⟨a | e, t⟩ <;> rw [hms] at h
  · exact h
  · exact hf _ _ h

theorem triple_weaken {m : Prog σ ε α} (hm : Triple P' m Q' E') (hp : ∀ s, P s → P' s)
    (hq : ∀ a s, Q' a s → Q a s) (he : ∀ e s, E' e s → E e s) : Triple P m Q E := by
  intro s hs
  have h := hm s (hp s hs)
  rcases hms : m s with ⟨a | e, t⟩ <;> rw [hms] at h
  · exact he _ _ h
  · exact hq _ _ h

theorem triple_when {c : Bool} {m : Prog σ ε Unit} {Q : Unit → σ → Prop}
    (hm : c = true → Triple P m Q E) (h : ∀ s, P s → Q () s) : Triple P (when c m) Q E := by
  cases c with
  | false => exact triple_pure () h
  | true => exact hm rfl

theorem triple_of_pre {m : Prog σ ε α} {φ : Prop} (h : ∀ s, P s → φ)
    (hm : φ → Triple P m Q E) : Triple P m Q E := fun s hs => hm (h s hs) s hs

theorem triple_attempt {m : Prog σ ε α} {R : Except ε α → σ → Prop}
    (hm : Triple P m (fun a => R (.ok a)) (fun e => R (.error e))) :
    Triple P (attempt m) R E := by
  intro s hs
  have h := hm s hs
  rcases hms : m s with ⟨a | e, t⟩ <;> rw [hms] at h <;> simpa [hms] using h

/-- After an attempt each outcome goes on from its own postcondition. -/
theorem triple_attempt_bind {m : Prog σ ε α} {f : Except ε α → Prog σ ε β} {R : β → σ → Prop}
    (hm : Triple P m Q E) (hok : ∀ a, Triple (Q a) (f (.ok a)) R E')
    (herror : ∀ e, Triple (E e) (f (.error e)) R E') : Triple P (attempt m >>= f) R E' := by
  intro s hs
  have h := hm s hs
  rw [bind_of_ok (attempt_run m s)]
  rcases hms : m s with ⟨e | a, t⟩ <;> rw [hms] at h
  · exact herror e t h
  · exact hok a t h

end Triples

section Relations

/-- Every outcome of `m` leaves a state related to the one it started in. -/
def Keeps (R : σ → σ → Prop) (m : Prog σ ε α) : Prop := ∀ s, R s (m s).2

variable {R : σ → σ → Prop} (hrefl : ∀ s, R s s)
  (htrans : ∀ s t u, R s t → R t u → R s u)

include hrefl in
theorem keeps_pure (a : α) : Keeps R (pure a : Prog σ ε α) := fun s => hrefl s

include hrefl in
theorem keeps_fail (e : ε) : Keeps R (fail e : Prog σ ε α) := fun s => hrefl s

include hrefl in
theorem keeps_get : Keeps R (get : Prog σ ε σ) := fun s => hrefl s

theorem keeps_attempt {m : Prog σ ε α} (hm : Keeps R m) : Keeps R (attempt m) :=
  fun s => hm s

include htrans in
theorem keeps_bind {m : Prog σ ε α} {f : α → Prog σ ε β}
    (hm : Keeps R m) (hf : ∀ a, Keeps R (f a)) : Keeps R (m >>= f) := by
  intro s
  have h := hm s
  rw [bind_run]
  rcases hms : m s with ⟨a | e, t⟩ <;> rw [hms] at h
  · exact h
  · exact htrans _ _ _ h (hf _ t)

include hrefl in
theorem keeps_when {c : Bool} {m : Prog σ ε Unit} (hm : c = true → Keeps R m) :
    Keeps R (when c m) := by
  cases c with
  | false => exact keeps_pure hrefl ()
  | true => exact hm rfl

include hrefl htrans in
theorem keeps_forEach {f : α → Prog σ ε Unit} (as : List α)
    (hf : ∀ a ∈ as, Keeps R (f a)) : Keeps R (forEach f as) := by
  induction as with
  | nil => exact keeps_pure hrefl ()
  | cons a as ih =>
    exact keeps_bind htrans (hf a (by simp)) fun _ => ih fun b hb => hf b (by simp [hb])

end Relations

section Pairs

/-- Runs from related states have one outcome and end in related states. -/
def Agrees (R : σ → σ → Prop) (m : Prog σ ε α) : Prop :=
  ∀ s t, R s t → (m s).1 = (m t).1 ∧ R (m s).2 (m t).2

variable {R : σ → σ → Prop}

theorem agrees_pure (a : α) : Agrees R (pure a : Prog σ ε α) := fun _ _ h => ⟨rfl,h⟩

theorem agrees_fail (e : ε) : Agrees R (fail e : Prog σ ε α) := fun _ _ h => ⟨rfl,h⟩

theorem agrees_bind {m : Prog σ ε α} {f : α → Prog σ ε β} (hm : Agrees R m)
    (hf : ∀ a, Agrees R (f a)) : Agrees R (m >>= f) := by
  intro s t h
  obtain ⟨hout,hstate⟩ := hm s t h
  rcases hs : m s with ⟨e | a,s'⟩ <;> rw [hs] at hout hstate
  · rw [bind_of_error hs,bind_of_error (run_of_fst hout.symm)]
    exact ⟨rfl,hstate⟩
  · rw [bind_of_ok hs,bind_of_ok (run_of_fst hout.symm)]
    exact hf a _ _ hstate

theorem agrees_attempt {m : Prog σ ε α} (hm : Agrees R m) : Agrees R (attempt m) := fun s t h =>
  ⟨congrArg Except.ok (hm s t h).1,(hm s t h).2⟩

end Pairs

end Whoisthat.FallibleState
