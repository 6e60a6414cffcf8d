import Mathlib.Data.List.Basic

namespace Runs

variable {σ α : Type}

/-- A run of `step` from `s₀`: the steps taken, the latest first, each with the
state it was taken in. The labels carry every choice of the environment. -/
inductive Run (step : σ → α → Option σ) (s₀ : σ) : List (σ × α) → σ → Prop
  | start : Run step s₀ [] s₀
  | next {trace s a t} : Run step s₀ trace s → step s a = some t →
      Run step s₀ ((s, a) :: trace) t

def AllSteps (ok : σ → α → Prop) (trace : List (σ × α)) : Prop :=
  ∀ p ∈ trace, ok p.1 p.2

/-- Every state the run passes through, the last one included, satisfies `P`. -/
def AllStates (P : σ → Prop) (trace : List (σ × α)) (s : σ) : Prop :=
  P s ∧ ∀ p ∈ trace, P p.1

variable {step : σ → α → Option σ} {s₀ s t : σ} {a : α} {trace : List (σ × α)}
  {ok : σ → α → Prop} {P Inv : σ → Prop}

@[simp] theorem allSteps_nil : AllSteps ok ([] : List (σ × α)) := by
  simp [AllSteps]

@[simp] theorem allSteps_cons : AllSteps ok ((s, a) :: trace) ↔ ok s a ∧ AllSteps ok trace := by
  simp [AllSteps]

@[simp] theorem allStates_nil : AllStates P ([] : List (σ × α)) s ↔ P s := by
  simp [AllStates]

@[simp] theorem allStates_cons :
    AllStates P ((s, a) :: trace) t ↔ P t ∧ AllStates P trace s := by
  simp [AllStates]

theorem AllStates.imp {Q : σ → Prop} (h : AllStates P trace s) (hPQ : ∀ s, P s → Q s) :
    AllStates Q trace s :=
  ⟨hPQ s h.1, fun p hp => hPQ p.1 (h.2 p hp)⟩

/-- What holds at the start and is kept by every allowed step holds in every state. -/
theorem Run.invariant (run : Run step s₀ trace s) (allowed : AllSteps ok trace)
    (start : Inv s₀) (keep : ∀ s a t, Inv s → ok s a → step s a = some t → Inv t) :
    AllStates Inv trace s := by
  induction run with
  | start => simpa using start
  | next _ hstep ih =>
    obtain ⟨hok, hrest⟩ := allSteps_cons.mp allowed
    have before := ih hrest
    exact allStates_cons.mpr ⟨keep _ _ _ before.1 hok hstep, before⟩

/-- When a step keeps `P` exactly if it is allowed, as long as the run is in its invariant,
`P` holds throughout the run exactly if all its steps are allowed. -/
theorem Run.allStates_iff_of_invariant (run : Run step s₀ trace s)
    (invariant : AllStates Inv trace s) (start : P s₀)
    (exact_step : ∀ s a t, Inv s → P s → step s a = some t → (P t ↔ ok s a)) :
    AllStates P trace s ↔ AllSteps ok trace := by
  induction run with
  | start => simpa using start
  | next _ hstep ih =>
    obtain ⟨-, before⟩ := allStates_cons.mp invariant
    rw [allStates_cons, allSteps_cons, ih before]
    constructor
    · rintro ⟨ht, hrest⟩
      exact ⟨(exact_step _ _ _ before.1 ((ih before).mpr hrest).1 hstep).mp ht, hrest⟩
    · rintro ⟨hok, hrest⟩
      exact ⟨(exact_step _ _ _ before.1 ((ih before).mpr hrest).1 hstep).mpr hok, hrest⟩

theorem Run.allStates_iff_allSteps (run : Run step s₀ trace s) (start : P s₀)
    (exact_step : ∀ s a t, P s → step s a = some t → (P t ↔ ok s a)) :
    AllStates P trace s ↔ AllSteps ok trace := by
  have invariant : AllStates (fun _ => True) trace s := ⟨trivial, fun _ _ => trivial⟩
  exact run.allStates_iff_of_invariant invariant start (fun s a t _ => exact_step s a t)

def replay (step : σ → α → Option σ) : σ → List α → Option σ
  | s, [] => some s
  | s, a :: as => (step s a).bind (replay step · as)

theorem replay_step {as : List α} (h : step s a = some t) :
    replay step s (a :: as) = replay step t as := by
  rw [replay, h, Option.bind_some]

theorem replay_append (step : σ → α → Option σ) (s : σ) (as bs : List α) :
    replay step s (as ++ bs) = (replay step s as).bind (replay step · bs) := by
  induction as generalizing s with
  | nil => rfl
  | cons a as ih =>
    simp only [List.cons_append, replay, Option.bind_assoc]
    congr 1
    funext u
    exact ih u

theorem replay_extends (run : Run step s₀ trace s) {as : List α}
    (h : replay step s as = some t) :
    ∃ whole, Run step s₀ whole t ∧ whole.map Prod.snd = as.reverse ++ trace.map Prod.snd := by
  induction as generalizing s trace with
  | nil =>
    cases Option.some.inj h
    exact ⟨trace, run, by simp⟩
  | cons a as ih =>
    obtain ⟨u, hstep, hrest⟩ := Option.bind_eq_some_iff.mp h
    obtain ⟨whole, hrun, hlabels⟩ := ih (Run.next run hstep) hrest
    exact ⟨whole, hrun, by simpa using hlabels⟩

/-- A list of steps that can be replayed is a run with these labels. -/
theorem replay_run {as : List α} (h : replay step s₀ as = some s) :
    ∃ trace, Run step s₀ trace s ∧ trace.map Prod.snd = as.reverse := by
  obtain ⟨trace, hrun, hlabels⟩ := replay_extends Run.start h
  exact ⟨trace, hrun, by simpa using hlabels⟩

theorem exists_run_of_replay {p : σ → Bool} {as : List α}
    (h : (replay step s₀ as).any p = true) :
    ∃ trace s, Run step s₀ trace s ∧ trace.map Prod.snd = as.reverse ∧ p s = true := by
  obtain ⟨s, hs, hp⟩ := (Option.any_eq_true _ _).mp h
  obtain ⟨trace, hrun, hlabels⟩ := replay_run hs
  exact ⟨trace, s, hrun, hlabels, hp⟩

/-- The machine that refuses the steps `ok` does not allow. -/
def guarded (ok : σ → α → Prop) [∀ s a, Decidable (ok s a)] (step : σ → α → Option σ) :
    σ → α → Option σ :=
  fun s a => if ok s a then step s a else none

theorem Run.of_guarded [∀ s a, Decidable (ok s a)] (run : Run (guarded ok step) s₀ trace s) :
    Run step s₀ trace s ∧ AllSteps ok trace := by
  induction run with
  | start => exact ⟨Run.start, allSteps_nil⟩
  | @next trace s a t _ hstep ih =>
    unfold guarded at hstep
    split at hstep
    next hok => exact ⟨Run.next ih.1 hstep, allSteps_cons.mpr ⟨hok, ih.2⟩⟩
    next => simp at hstep

theorem exists_allowed_run [∀ s a, Decidable (ok s a)] {as : List α}
    (h : (replay (guarded ok step) s₀ as).isSome = true) :
    ∃ trace s, Run step s₀ trace s ∧ AllSteps ok trace ∧ trace.map Prod.snd = as.reverse := by
  obtain ⟨s, hs⟩ := Option.isSome_iff_exists.mp h
  obtain ⟨trace, hrun, hlabels⟩ := replay_run hs
  obtain ⟨hplain, hok⟩ := hrun.of_guarded
  exact ⟨trace, s, hplain, hok, hlabels⟩

/-- What the last entry that has a value of `f` has. -/
def lastSome {β : Type} (f : α → Option β) : List α → Option β
  | [] => none
  | x :: xs => (lastSome f xs).or (f x)

theorem lastSome_append {β : Type} {f : α → Option β} {xs ys : List α} :
    lastSome f (xs ++ ys) = (lastSome f ys).or (lastSome f xs) := by
  induction xs with
  | nil => simp [lastSome]
  | cons x xs ih => simp only [List.cons_append, lastSome, ih, Option.or_assoc]

end Runs
