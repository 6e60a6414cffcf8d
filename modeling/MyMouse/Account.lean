import Mathlib.Algebra.Group.Defs
import Mathlib.Tactic.Abel

namespace Accounts

/-- What has come in of a quantity, and where it is: waiting, in the report, given away or
dropped. -/
structure Account (R : Type) where
  pending : R
  report : R
  given : R
  dropped : R
  entered : R

namespace Account

variable {R : Type} [AddCommGroup R]

def Balanced (l : Account R) : Prop := l.given + l.dropped + l.report + l.pending = l.entered

/-- What comes in replaces what the report holds. -/
def bring (amount : R) (l : Account R) : Account R :=
  { l with report := amount, entered := l.entered + amount }

/-- What comes in is added to what was pending when it was loaded. -/
def store (loaded amount : R) (l : Account R) : Account R :=
  { l with pending := loaded + amount, entered := l.entered + amount }

/-- What is pending is overwritten. -/
def replace (amount : R) (l : Account R) : Account R := { l with pending := amount }

def fill (l : Account R) : Account R :=
  { l with report := l.report + l.pending, pending := 0 }

def give (l : Account R) : Account R :=
  { l with given := l.given + l.report, report := 0 }

def drop (l : Account R) : Account R :=
  { l with dropped := l.dropped + l.report, report := 0 }

variable {l : Account R} {loaded amount : R}

theorem Balanced.bring_iff (h : l.Balanced) : (l.bring amount).Balanced ↔ l.report = 0 := by
  unfold Balanced at h
  unfold Balanced bring
  dsimp only
  rw [← h]
  have hmove : l.given + l.dropped + l.report + l.pending + amount =
      l.given + l.dropped + amount + l.pending + l.report := by abel
  rw [hmove]
  exact left_eq_add

theorem Balanced.store_iff (h : l.Balanced) :
    (l.store loaded amount).Balanced ↔ loaded = l.pending := by
  unfold Balanced at h
  unfold Balanced store
  dsimp only
  rw [← h]
  have hmove : l.given + l.dropped + l.report + l.pending + amount =
      l.given + l.dropped + l.report + (l.pending + amount) := by abel
  rw [hmove, add_right_inj, add_left_inj]

theorem Balanced.replace_iff (h : l.Balanced) :
    (l.replace amount).Balanced ↔ amount = l.pending := by
  unfold Balanced at h
  unfold Balanced replace
  dsimp only
  rw [← h, add_right_inj]

theorem Balanced.fill (h : l.Balanced) : l.fill.Balanced := by
  unfold Balanced at h
  unfold Balanced Account.fill
  dsimp only
  rw [← h]
  abel

theorem Balanced.give (h : l.Balanced) : l.give.Balanced := by
  unfold Balanced at h
  unfold Balanced Account.give
  dsimp only
  rw [← h]
  abel

theorem Balanced.drop (h : l.Balanced) : l.drop.Balanced := by
  unfold Balanced at h
  unfold Balanced Account.drop
  dsimp only
  rw [← h]
  abel

/-- With nothing pending and an empty report, all that has come in is given away or dropped. -/
theorem Balanced.settled (h : l.Balanced) (hreport : l.report = 0) (hpending : l.pending = 0) :
    l.given + l.dropped = l.entered := by
  unfold Balanced at h
  rw [hreport, hpending, add_zero, add_zero] at h
  exact h

end Account

end Accounts
