import Mathlib.Data.List.Basic

namespace Machines

variable {σ τ ι ο : Type}

/-- What the machine answers to each input in turn. -/
def results (step : σ → ι → ο × σ) : σ → List ι → List ο
  | _, [] => []
  | s, i :: is => (step s i).1 :: results step (step s i).2 is

def after (step : σ → ι → ο × σ) : σ → List ι → σ
  | s, [] => s
  | s, i :: is => after step (step s i).2 is

/-- Every input comes in a state where `ok` allows it. -/
def Admits (ok : σ → ι → Prop) (step : σ → ι → ο × σ) : σ → List ι → Prop
  | _, [] => True
  | s, i :: is => ok s i ∧ Admits ok step (step s i).2 is

instance Admits.decidable (ok : σ → ι → Prop) [∀ s i, Decidable (ok s i)]
    (step : σ → ι → ο × σ) (s : σ) (inputs : List ι) : Decidable (Admits ok step s inputs) :=
  match inputs with
  | [] => isTrue trivial
  | i :: is =>
    have := Admits.decidable ok step (step s i).2 is
    inferInstanceAs (Decidable (ok s i ∧ Admits ok step (step s i).2 is))

/-- Related machines give the same answer to an allowed input and stay related. -/
def Simulates (impl : σ → ι → ο × σ) (spec : τ → ι → ο × τ) (ok : τ → ι → Prop)
    (R : σ → τ → Prop) : Prop :=
  ∀ s t i, R s t → ok t i → (impl s i).1 = (spec t i).1 ∧ R (impl s i).2 (spec t i).2

variable {impl : σ → ι → ο × σ} {spec : τ → ι → ο × τ} {ok : τ → ι → Prop} {R : σ → τ → Prop}
  {s : σ} {t : τ} {inputs : List ι}

theorem admits_of_forall (step : σ → ι → ο × σ) {ok : σ → ι → Prop} (h : ∀ s i, ok s i) :
    Admits ok step s inputs := by
  induction inputs generalizing s with
  | nil => exact trivial
  | cons i is ih => exact ⟨h s i, ih⟩

theorem Simulates.results_eq (sim : Simulates impl spec ok R) (related : R s t)
    (admitted : Admits ok spec t inputs) : results impl s inputs = results spec t inputs := by
  induction inputs generalizing s t with
  | nil => rfl
  | cons i is ih =>
    obtain ⟨same, next⟩ := sim s t i related admitted.1
    simp only [results, same, ih next admitted.2]

theorem Simulates.related_after (sim : Simulates impl spec ok R) (related : R s t)
    (admitted : Admits ok spec t inputs) : R (after impl s inputs) (after spec t inputs) := by
  induction inputs generalizing s t with
  | nil => exact related
  | cons i is ih =>
    obtain ⟨_, next⟩ := sim s t i related admitted.1
    exact ih next admitted.2

theorem after_append (step : σ → ι → ο × σ) (s : σ) (xs ys : List ι) :
    after step s (xs ++ ys) = after step (after step s xs) ys := by
  induction xs generalizing s with
  | nil => rfl
  | cons i is ih => exact ih (step s i).2

theorem after_invariant {P : σ → Prop} {step : σ → ι → ο × σ} (start : P s)
    (keep : ∀ s i, P s → P (step s i).2) : P (after step s inputs) := by
  induction inputs generalizing s with
  | nil => exact start
  | cons i is ih => exact ih (keep s i start)

end Machines
