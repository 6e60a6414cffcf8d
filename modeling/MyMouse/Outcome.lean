import Mathlib.Data.List.Basic

/-- What a fallible function that may also panic comes to. -/
inductive Outcome (α : Type) where
  | ok (value : α)
  | err (message : String)
  | panic
  deriving DecidableEq

namespace Outcome

variable {α β γ : Type}

def bind (x : Outcome α) (f : α → Outcome β) : Outcome β :=
  match x with
  | .ok a => f a
  | .err message => .err message
  | .panic => .panic

instance : Monad Outcome where
  pure := ok
  bind := bind

@[simp] theorem ok_bind (a : α) (f : α → Outcome β) : (ok a >>= f) = f a := rfl

@[simp] theorem pure_eq (a : α) : (pure a : Outcome α) = ok a := rfl

theorem bind_eq_ok {x : Outcome α} {f : α → Outcome β} {b : β} :
    (x >>= f) = ok b ↔ ∃ a, x = ok a ∧ f a = ok b := by
  cases x with
  | ok a => simp
  | err message => exact ⟨fun h => (nomatch h), fun ⟨_, h, _⟩ => (nomatch h)⟩
  | panic => exact ⟨fun h => (nomatch h), fun ⟨_, h, _⟩ => (nomatch h)⟩

theorem ok_ne_panic (a : α) : ok a ≠ panic := fun h => nomatch h

theorem err_ne_panic (message : String) : (err message : Outcome α) ≠ panic := fun h => nomatch h

theorem bind_ne_panic {x : Outcome α} {f : α → Outcome β} :
    (x >>= f) ≠ panic ↔ x ≠ panic ∧ ∀ a, x = ok a → f a ≠ panic := by
  cases x with
  | ok a => simp
  | err message =>
    exact iff_of_true (err_ne_panic message) ⟨err_ne_panic message, fun _ h => nomatch h⟩
  | panic => exact iff_of_false (fun h => h rfl) (fun h => h.1 rfl)

/-- The computation comes to a value or panics. -/
def NeverErr (x : Outcome α) : Prop :=
  ∀ message, x ≠ err message

theorem neverErr_ok (a : α) : NeverErr (ok a) := fun _ h => nomatch h

theorem neverErr_panic : NeverErr (panic : Outcome α) := fun _ h => nomatch h

theorem NeverErr.bind {x : Outcome α} {f : α → Outcome β} (hx : x.NeverErr)
    (hf : ∀ a, (f a).NeverErr) : (x >>= f).NeverErr := by
  cases x with
  | ok a => exact hf a
  | err message => exact absurd rfl (hx message)
  | panic => exact neverErr_panic

theorem NeverErr.ok_of_ne_panic {x : Outcome α} (hx : x.NeverErr) (h : x ≠ panic) :
    ∃ a, x = ok a := by
  cases x with
  | ok a => exact ⟨a, rfl⟩
  | err message => exact absurd rfl (hx message)
  | panic => exact absurd rfl h

def expect {ε : Type} : Except ε α → Outcome α
  | .ok a => .ok a
  | .error _ => .panic

theorem neverErr_expect {ε : Type} (x : Except ε α) : NeverErr (expect x) := by
  cases x with
  | ok a => exact neverErr_ok a
  | error e => exact neverErr_panic

/-- The loop rule: every turn goes well and keeps the invariant of the turns done. -/
theorem foldlM_ok {f : β → α → Outcome β} {b : β} (Inv : List α → β → Prop) (xs : List α)
    (start : Inv [] b) (keep : ∀ done a b, a ∈ xs → Inv done b →
      ∃ b', f b a = ok b' ∧ Inv (done ++ [a]) b') :
    ∃ b', xs.foldlM f b = ok b' ∧ Inv xs b' := by
  have general : ∀ (rest done : List α) (b : β), (∀ a ∈ rest, a ∈ xs) → Inv done b →
      ∃ b', rest.foldlM f b = ok b' ∧ Inv (done ++ rest) b' := by
    intro rest
    induction rest with
    | nil =>
      intro done b _ hinv
      exact ⟨b, rfl, by simpa using hinv⟩
    | cons a rest ih =>
      intro done b hmem hinv
      obtain ⟨c, hstep, hkept⟩ := keep done a b (hmem a (by simp)) hinv
      obtain ⟨b', hrest, hend⟩ := ih (done ++ [a]) c (fun x hx => hmem x (by simp [hx])) hkept
      refine ⟨b', ?_, by simpa using hend⟩
      rw [List.foldlM_cons, hstep]
      exact hrest
  simpa using general xs [] b (fun _ h => h) start

/-- Every turn of a loop that went well went well, and what it left is related to the end. -/
theorem foldlM_eq_ok {f : β → α → Outcome β} {R : β → β → Prop} (refl : ∀ b, R b b)
    (trans : ∀ b c d, R b c → R c d → R b d) (step : ∀ b a c, f b a = ok c → R b c)
    {xs : List α} {b c : β} (h : xs.foldlM f b = ok c) :
    R b c ∧ ∀ a ∈ xs, ∃ before after, f before a = ok after ∧ R after c := by
  induction xs generalizing b with
  | nil =>
    cases h
    exact ⟨refl _, by simp⟩
  | cons x xs ih =>
    rw [List.foldlM_cons] at h
    obtain ⟨next, hfirst, hrest⟩ := bind_eq_ok.mp h
    obtain ⟨hkept, hall⟩ := ih hrest
    refine ⟨trans _ _ _ (step _ _ _ hfirst) hkept, ?_⟩
    intro a ha
    rcases List.mem_cons.mp ha with rfl | ha
    · exact ⟨b, next, hfirst, hkept⟩
    · exact hall a ha

end Outcome
