import Mathlib.Logic.Basic

/-!
# Runs of a transition system with atomic, fallible steps

A replicated state machine applies one action after another, and an
action that fails leaves the state as it was: the transaction is rolled
back. This module fixes that reading once, for an arbitrary state type
`σ` and action type `α`.

`run step s as` applies the actions `as` in order. `commit f` turns a
fallible update `σ → Except ε σ` into a total one that keeps the state
on an error. `Reachable step init` is the set of states some run reaches
from `init`.

Four rules carry every whole-run statement of the development:
`run_invariant` (a predicate kept by each step holds after every run),
`run_rel` (a preorder that each step respects relates the first state of a
run to its last), `run_stable` (a property of the state that, once it
holds, each step keeps) and `run_simulation` (a relation between two
machines that each pair of steps on the same action keeps relates the ends
of their runs). Each is an induction on the list of actions, done here so
that no proof about the model repeats it.
-/

namespace Transition

variable {σ α ε : Type}

/-- **The state after a run of actions**, applied left to right. -/
def run (step : σ → α → σ) (s : σ) (as : List α) : σ := as.foldl step s

@[simp] theorem run_nil (step : σ → α → σ) (s : σ) : run step s [] = s := rfl

@[simp] theorem run_cons (step : σ → α → σ) (s : σ) (a : α) (as : List α) :
    run step s (a :: as) = run step (step s a) as := rfl

theorem run_append (step : σ → α → σ) (s : σ) (as bs : List α) :
    run step s (as ++ bs) = run step (run step s as) bs := List.foldl_append

/-- A fallible update, made total by rolling back on an error. -/
def commit (f : σ → Except ε σ) (s : σ) : σ :=
  match f s with
  | .ok s' => s'
  | .error _ => s

theorem commit_of_ok {f : σ → Except ε σ} {s s' : σ} (h : f s = .ok s') : commit f s = s' := by
  unfold commit
  rw [h]

theorem commit_of_error {f : σ → Except ε σ} {s : σ} {e : ε} (h : f s = .error e) :
    commit f s = s := by
  unfold commit
  rw [h]

/-- **A committed update keeps what every successful update keeps.** -/
theorem commit_preserves {I : σ → Prop} {f : σ → Except ε σ} {s : σ}
    (hok : ∀ s', f s = .ok s' → I s') (hs : I s) : I (commit f s) := by
  unfold commit
  split
  · -- the update succeeded
    exact hok _ ‹_›
  · -- it failed and was rolled back
    exact hs

section except

variable {β : Type}

/-! The four ways an `Except` computation can be read back, used to peel a
fallible update apart one bind at a time. -/

/-- **Peeling a sequenced update**: a bind that succeeds had a first part
that succeeded. -/
theorem bind_eq_ok {x : Except ε σ} {f : σ → Except ε β} {b : β} :
    (x >>= f) = .ok b ↔ ∃ a, x = .ok a ∧ f a = .ok b := by
  cases x with
  | error e => exact ⟨fun h => (by cases h), fun ⟨_, h, _⟩ => (by cases h)⟩
  | ok a => exact ⟨fun h => ⟨a, rfl, h⟩, fun ⟨_, h, hf⟩ => by cases h; exact hf⟩

/-- A bind fails in its first part, or after a first part that succeeded. -/
theorem bind_eq_error {x : Except ε σ} {f : σ → Except ε β} {e : ε} :
    (x >>= f) = .error e ↔ x = .error e ∨ ∃ a, x = .ok a ∧ f a = .error e := by
  cases x with
  | error e' =>
    show Except.error e' = .error e ↔ _
    simp
  | ok a =>
    show f a = .error e ↔ _
    simp

/-- A bind on a success runs its second part. -/
@[simp] theorem ok_bind (a : σ) (f : σ → Except ε β) : (Except.ok a >>= f) = f a := rfl

theorem pure_eq_ok {a b : σ} : (pure a : Except ε σ) = .ok b ↔ a = b :=
  ⟨fun h => (by cases h; rfl), fun h => h ▸ rfl⟩

theorem pure_eq_error {a : σ} {e : ε} : (pure a : Except ε σ) = .error e ↔ False :=
  ⟨fun h => (by cases h), False.elim⟩

/-- **An early return**: fail with `e` when `c` holds (Go's
`if c { return e }`). -/
def failIf (c : Prop) [Decidable c] (e : ε) : Except ε Unit := if c then .error e else .ok ()

/-- **A lookup that must succeed**: the value, or fail with `e` (Go's
`if x == nil { return e }`). -/
def orFail {β : Type} (o : Option β) (e : ε) : Except ε β :=
  match o with
  | some b => .ok b
  | none => .error e

theorem failIf_eq_ok {c : Prop} [Decidable c] {e : ε} {u : Unit} : failIf c e = .ok u ↔ ¬c := by
  unfold failIf
  by_cases hc : c <;> simp [hc]

theorem failIf_eq_error {c : Prop} [Decidable c] {e e' : ε} :
    failIf c e = .error e' ↔ c ∧ e = e' := by
  unfold failIf
  by_cases hc : c <;> simp [hc]

theorem orFail_eq_ok {o : Option β} {e : ε} {b : β} : orFail o e = .ok b ↔ o = some b := by
  cases o <;> simp [orFail]

theorem orFail_eq_error {o : Option β} {e e' : ε} : orFail o e = .error e' ↔ o = none ∧ e = e' := by
  cases o <;> simp [orFail]

/-- **A fallible loop keeps what each of its iterations keeps**, each
over an element of the list: the invariant rule of `foldlM` in `Except`. -/
theorem foldlM_invariant_of_mem {γ : Type} {P : β → Prop} {f : β → γ → Except ε β} :
    ∀ (l : List γ), (∀ b a b', a ∈ l → P b → f b a = .ok b' → P b') →
      ∀ {b b' : β}, P b → l.foldlM f b = .ok b' → P b'
  | [], _, _, _, hb, h => by
    rw [List.foldlM_nil, pure_eq_ok] at h
    exact h ▸ hb
  | a :: l, hf, b, _, hb, h => by
    rw [List.foldlM_cons, bind_eq_ok] at h
    obtain ⟨b₁, h₁, h₂⟩ := h
    exact foldlM_invariant_of_mem l (fun b a' b' ha' => hf b a' b' (List.mem_cons_of_mem a ha'))
      (hf b a b₁ List.mem_cons_self hb h₁) h₂

/-- **A fallible loop fails** when its iteration over one element of the
list fails from every state. -/
theorem foldlM_ne_ok_of_mem {γ : Type} {f : β → γ → Except ε β} {a : γ}
    (hf : ∀ b b', f b a ≠ .ok b') : ∀ {l : List γ}, a ∈ l → ∀ {b b' : β}, l.foldlM f b ≠ .ok b'
  | x :: l, ha, b, b', h => by
    rw [List.foldlM_cons, bind_eq_ok] at h
    obtain ⟨b₁, h₁, h₂⟩ := h
    rcases List.mem_cons.mp ha with rfl | ha
    · exact hf b b₁ h₁
    · exact foldlM_ne_ok_of_mem hf ha h₂

/-- The invariant rule of `foldlM` for iterations that keep it whatever
the element. -/
theorem foldlM_invariant {γ : Type} {P : β → Prop} {f : β → γ → Except ε β}
    (hf : ∀ b a b', P b → f b a = .ok b' → P b') (l : List γ) {b b' : β} :
    P b → l.foldlM f b = .ok b' → P b' :=
  foldlM_invariant_of_mem l fun b a b' _ => hf b a b'

end except

/-- The states some run reaches from `init`. -/
def Reachable (step : σ → α → σ) (init : σ) (s : σ) : Prop := ∃ as, run step init as = s

theorem Reachable.init (step : σ → α → σ) (init : σ) : Reachable step init init := ⟨[], rfl⟩

theorem Reachable.step {step : σ → α → σ} {init s : σ} (h : Reachable step init s) (a : α) :
    Reachable step init (step s a) := by
  obtain ⟨as, rfl⟩ := h
  exact ⟨as ++ [a], by rw [run_append]; rfl⟩

section rules

variable {step : σ → α → σ}

/-- **Invariant rule**: a predicate every step keeps holds after every run. -/
theorem run_invariant {I : σ → Prop} (hstep : ∀ s a, I s → I (step s a)) :
    ∀ {s : σ} (as : List α), I s → I (run step s as)
  | _, [], hs => hs
  | _, a :: as, hs => run_invariant hstep as (hstep _ a hs)

/-- **Invariant rule for one run**: a predicate kept by the steps the run
takes holds after it. -/
theorem run_invariant_of_mem {I : σ → Prop} :
    ∀ {s : σ} (as : List α), (∀ s a, a ∈ as → I s → I (step s a)) → I s → I (run step s as)
  | _, [], _, hs => hs
  | _, a :: as, hstep, hs =>
    run_invariant_of_mem as (fun s b hb => hstep s b (List.mem_cons_of_mem a hb))
      (hstep _ a List.mem_cons_self hs)

theorem Reachable.invariant {I : σ → Prop} {init s : σ} (h0 : I init)
    (hstep : ∀ s a, I s → I (step s a)) (h : Reachable step init s) : I s := by
  obtain ⟨as, rfl⟩ := h
  exact run_invariant hstep as h0

/-- **Along a run, a preorder that each step respects** (from states of the
invariant `I`) relates the first state to the last. -/
theorem run_rel {I : σ → Prop} {R : σ → σ → Prop} (hrefl : ∀ s, R s s)
    (htrans : ∀ s₁ s₂ s₃, R s₁ s₂ → R s₂ s₃ → R s₁ s₃)
    (hI : ∀ s a, I s → I (step s a)) (hR : ∀ s a, I s → R s (step s a)) :
    ∀ {s : σ} (as : List α), I s → R s (run step s as)
  | s, [], _ => hrefl s
  | _, a :: as, hs => htrans _ _ _ (hR _ a hs) (run_rel hrefl htrans hI hR as (hI _ a hs))

/-- **A stable property**: once it holds in a state of the invariant `I`,
every later state of the run has it. -/
theorem run_stable {I P : σ → Prop} (hI : ∀ s a, I s → I (step s a))
    (hP : ∀ s a, I s → P s → P (step s a)) :
    ∀ {s : σ} (as : List α), I s → P s → P (run step s as)
  | _, [], _, hp => hp
  | _, a :: as, hs, hp => run_stable hI hP as (hI _ a hs) (hP _ a hs hp)

/-- **Simulation rule**: a relation between the states of two machines
that each pair of steps on the same action keeps relates the states their
runs on the same actions end in. -/
theorem run_simulation {τ : Type} {step' : τ → α → τ} {R : σ → τ → Prop}
    (hstep : ∀ s t a, R s t → R (step s a) (step' t a)) :
    ∀ {s : σ} {t : τ} (as : List α), R s t → R (run step s as) (run step' t as)
  | _, _, [], h => h
  | _, _, a :: as, h => run_simulation hstep as (hstep _ _ a h)

end rules

end Transition
