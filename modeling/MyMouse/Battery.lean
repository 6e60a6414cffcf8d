import Mathlib.Data.List.Pairwise
import Mathlib.Algebra.Order.Ring.Int

namespace MyMouse

structure BatteryLevelPoint where
  points : Int
  voltage : Int
  deriving DecidableEq

/-- What the standard leaves undefined on the way through `battery_charge_level`. -/
inductive BatteryFault
  | readPastLast
  | readBeforeFirst
  | divisionByZero
  | overflow
  deriving DecidableEq

instance : DecidableEq (Except BatteryFault Int)
  | .ok a, .ok b => decidable_of_iff (a = b) (by simp)
  | .error a, .error b => decidable_of_iff (a = b) (by simp)
  | .ok _, .error _ => isFalse (by simp)
  | .error _, .ok _ => isFalse (by simp)

/-- The result of an `int` operation. -/
def checkedInt (x : Int) : Except BatteryFault Int :=
  if -2 ^ 31 ≤ x ∧ x < 2 ^ 31 then .ok x else .error .overflow

/-- The `while` loop over what is left of the curve: the level it returns, or the index of the
lower bound it stops at. -/
def findLowerBound (millivolts : Int) :
    List BatteryLevelPoint → Nat → Except BatteryFault (Int ⊕ Nat)
  | [], _ => .error .readPastLast
  | pb :: rest, i =>
    if millivolts < pb.voltage then
      if pb.points > 0 then findLowerBound millivolts rest (i + 1)
      else .ok (.inl (pb.points.tdiv 100))
    else .ok (.inr i)

def interpolate (pa pb : BatteryLevelPoint) (millivolts : Int) : Except BatteryFault Int := do
  let rise ← checkedInt (pa.points - pb.points)
  let above ← checkedInt (millivolts - pb.voltage)
  let product ← checkedInt (rise * above)
  let span ← checkedInt (pa.voltage - pb.voltage)
  if span = 0 then .error .divisionByZero
  else
    let sum ← checkedInt (pb.points + product.tdiv span)
    .ok (sum.tdiv 100)

def batteryChargeLevel (curve : List BatteryLevelPoint) (millivolts : Int) :
    Except BatteryFault Int :=
  match curve with
  | [] => .error .readPastLast
  | first :: _ =>
    if millivolts ≥ first.voltage then .ok (first.points.tdiv 100)
    else
      match findLowerBound millivolts curve 0 with
      | .error fault => .error fault
      | .ok (.inl level) => .ok level
      | .ok (.inr 0) => .error .readBeforeFirst
      | .ok (.inr (i + 1)) =>
        match curve[i]?, curve[i + 1]? with
        | some pa, some pb => interpolate pa pb millivolts
        | _, _ => .error .readPastLast

/-- A capacity curve: both columns fall strictly, and the points end with 0. -/
structure CapacityCurve where
  first : BatteryLevelPoint
  rest : List BatteryLevelPoint
  two : rest ≠ []
  falling : (first :: rest).Pairwise (fun a b => b.voltage < a.voltage ∧ b.points < a.points)
  last : (rest.getLast two).points = 0

def batCapacityCurve : CapacityCurve :=
  { first := ⟨10000, 3950⟩
    rest := [⟨625, 3550⟩, ⟨0, 3100⟩]
    two := by decide
    falling := by decide
    last := by decide }

/-- The value the code computes between two points, while no operation overflows. -/
def between (pa pb : BatteryLevelPoint) (millivolts : Int) : Int :=
  (pb.points + (pa.points - pb.points) * (millivolts - pb.voltage) / (pa.voltage - pb.voltage)) / 100

section Segment

variable {pa pb : BatteryLevelPoint} {millivolts : Int}

theorem checkedInt_ok {x : Int} (h : checkedInt x ≠ .error .overflow) : checkedInt x = .ok x := by
  unfold checkedInt at h ⊢
  split
  next => rfl
  next hrange =>
    rw [if_neg hrange] at h
    exact absurd rfl h

theorem checkedInt_range {x : Int} (low : -2 ^ 31 ≤ x) (high : x < 2 ^ 31) : checkedInt x = .ok x :=
  if_pos ⟨low, high⟩

theorem checkedInt_bind {x : Int} {f : Int → Except BatteryFault Int}
    (h : (checkedInt x >>= f) ≠ .error .overflow) : (checkedInt x >>= f) = f x := by
  have hx : checkedInt x ≠ .error .overflow := by
    intro herror
    apply h
    rw [herror]
    rfl
  rw [checkedInt_ok hx]
  rfl

theorem risen_nonneg (falls : pb.voltage < pa.voltage) (drops : pb.points < pa.points)
    (low : pb.voltage ≤ millivolts) :
    0 ≤ (pa.points - pb.points) * (millivolts - pb.voltage) / (pa.voltage - pb.voltage) :=
  Int.ediv_nonneg (mul_nonneg (by omega) (by omega)) (by omega)

theorem risen_le (falls : pb.voltage < pa.voltage) (drops : pb.points < pa.points)
    (high : millivolts ≤ pa.voltage) :
    (pa.points - pb.points) * (millivolts - pb.voltage) / (pa.voltage - pb.voltage) ≤
      pa.points - pb.points := by
  apply Int.ediv_le_of_le_mul (by omega)
  exact mul_le_mul_of_nonneg_left (by omega) (by omega)

theorem interpolate_eq (falls : pb.voltage < pa.voltage) (drops : pb.points < pa.points)
    (nonneg : 0 ≤ pb.points) (low : pb.voltage ≤ millivolts)
    (h : interpolate pa pb millivolts ≠ .error .overflow) :
    interpolate pa pb millivolts = .ok (between pa pb millivolts) := by
  unfold interpolate at h ⊢
  have hrise := checkedInt_bind h
  rw [hrise] at h ⊢
  have habove := checkedInt_bind h
  rw [habove] at h ⊢
  have hproduct := checkedInt_bind h
  rw [hproduct] at h ⊢
  have hspan := checkedInt_bind h
  rw [hspan] at h ⊢
  have hne : ¬ pa.voltage - pb.voltage = 0 := by omega
  rw [if_neg hne] at h ⊢
  have hsum := checkedInt_bind h
  rw [hsum]
  have hproduct : 0 ≤ (pa.points - pb.points) * (millivolts - pb.voltage) :=
    mul_nonneg (by omega) (by omega)
  have hrisen := risen_nonneg falls drops low
  rw [Int.tdiv_eq_ediv_of_nonneg hproduct, Int.tdiv_eq_ediv_of_nonneg (by omega)]
  rfl

/-- Between points of a table of non-negative `int`s only the product can overflow. -/
theorem interpolate_overflow (falls : pb.voltage < pa.voltage) (drops : pb.points < pa.points)
    (nonneg : 0 ≤ pb.points) (positive : 0 ≤ pb.voltage) (voltage : pa.voltage < 2 ^ 31)
    (points : pa.points < 2 ^ 31) (low : pb.voltage ≤ millivolts) (high : millivolts < pa.voltage)
    (h : interpolate pa pb millivolts = .error .overflow) :
    2 ^ 31 ≤ (pa.points - pb.points) * (millivolts - pb.voltage) := by
  by_contra small
  have hnonneg : 0 ≤ (pa.points - pb.points) * (millivolts - pb.voltage) :=
    mul_nonneg (by omega) (by omega)
  have hlow := risen_nonneg falls drops low
  have hhigh := risen_le falls drops high.le
  rw [← Int.tdiv_eq_ediv_of_nonneg hnonneg] at hlow hhigh
  have hrise : checkedInt (pa.points - pb.points) = .ok (pa.points - pb.points) :=
    checkedInt_range (by omega) (by omega)
  have habove : checkedInt (millivolts - pb.voltage) = .ok (millivolts - pb.voltage) :=
    checkedInt_range (by omega) (by omega)
  have hproduct : checkedInt ((pa.points - pb.points) * (millivolts - pb.voltage)) =
      .ok ((pa.points - pb.points) * (millivolts - pb.voltage)) :=
    checkedInt_range (by omega) (by omega)
  have hspan : checkedInt (pa.voltage - pb.voltage) = .ok (pa.voltage - pb.voltage) :=
    checkedInt_range (by omega) (by omega)
  have hsum := checkedInt_range (x := pb.points + ((pa.points - pb.points) *
    (millivolts - pb.voltage)).tdiv (pa.voltage - pb.voltage)) (by omega) (by omega)
  have hne : ¬ pa.voltage - pb.voltage = 0 := by omega
  unfold interpolate at h
  simp only [hrise, habove, hproduct, hspan, hsum, bind, Except.bind, if_neg hne] at h
  cases h

theorem between_ge (falls : pb.voltage < pa.voltage) (drops : pb.points < pa.points)
    (low : pb.voltage ≤ millivolts) : pb.points / 100 ≤ between pa pb millivolts := by
  have hrisen := risen_nonneg falls drops low
  exact Int.ediv_le_ediv (by decide) (by omega)

theorem between_le (falls : pb.voltage < pa.voltage) (drops : pb.points < pa.points)
    (high : millivolts ≤ pa.voltage) : between pa pb millivolts ≤ pa.points / 100 := by
  have hrisen := risen_le falls drops high
  exact Int.ediv_le_ediv (by decide) (by omega)

theorem between_voltage : between pa pb pb.voltage = pb.points / 100 := by
  simp [between]

theorem between_mono (falls : pb.voltage < pa.voltage) (drops : pb.points < pa.points)
    {higher : Int} (hle : millivolts ≤ higher) :
    between pa pb millivolts ≤ between pa pb higher := by
  have hproduct : (pa.points - pb.points) * (millivolts - pb.voltage) ≤
      (pa.points - pb.points) * (higher - pb.voltage) :=
    mul_le_mul_of_nonneg_left (by omega) (by omega)
  have hquotient := Int.ediv_le_ediv (c := pa.voltage - pb.voltage) (by omega) hproduct
  exact Int.ediv_le_ediv (by decide) (by omega)

end Segment

/-- The loop stops at the last point at the latest, which has no points left. -/
theorem findLowerBound_spec (millivolts : Int) {table : List BatteryLevelPoint} (hne : table ≠ [])
    (falling : table.Pairwise (fun a b => b.voltage < a.voltage ∧ b.points < a.points))
    (last : (table.getLast hne).points = 0) (i : Nat) :
    (findLowerBound millivolts table i = .ok (.inl 0) ∧ ∀ p ∈ table, millivolts < p.voltage) ∨
    ∃ above pb below, table = above ++ pb :: below ∧
      findLowerBound millivolts table i = .ok (.inr (i + above.length)) ∧
      pb.voltage ≤ millivolts ∧ ∀ p ∈ above, millivolts < p.voltage := by
  induction table generalizing i with
  | nil => exact absurd rfl hne
  | cons p rest ih =>
    obtain ⟨hhead, htail⟩ := List.pairwise_cons.mp falling
    by_cases high : millivolts < p.voltage
    · by_cases empty : rest = []
      · subst empty
        have hzero : p.points = 0 := last
        refine Or.inl ⟨?_, by simpa using high⟩
        simp [findLowerBound, high, hzero]
      · have hlast : (rest.getLast empty).points = 0 := by
          rw [List.getLast_cons empty] at last
          exact last
        have hpositive : p.points > 0 := by
          have hfalls := (hhead _ (List.getLast_mem empty)).2
          omega
        have hloop : findLowerBound millivolts (p :: rest) i =
            findLowerBound millivolts rest (i + 1) := by
          rw [findLowerBound, if_pos high, if_pos hpositive]
        rw [hloop]
        rcases ih empty htail hlast (i + 1) with ⟨hfound, habove⟩ |
          ⟨above, pb, below, rfl, hfound, hlow, habove⟩
        · refine Or.inl ⟨hfound, ?_⟩
          intro q hq
          rcases List.mem_cons.mp hq with rfl | hq
          · exact high
          · exact habove q hq
        · refine Or.inr ⟨p :: above, pb, below, rfl, ?_, hlow, ?_⟩
          · rw [hfound, List.length_cons]
            congr 2
            omega
          · intro q hq
            rcases List.mem_cons.mp hq with rfl | hq
            · exact high
            · exact habove q hq
    · refine Or.inr ⟨[], p, rest, rfl, ?_, by omega, by simp⟩
      rw [findLowerBound, if_neg high]
      rfl

namespace CapacityCurve

variable (curve : CapacityCurve)

def table : List BatteryLevelPoint := curve.first :: curve.rest

def Adjacent (pa pb : BatteryLevelPoint) : Prop :=
  ∃ above below, curve.table = above ++ pa :: pb :: below

/-- The level of a curve: what is left at its ends, and on the line between two points. -/
inductive LevelAt (millivolts : Int) : Int → Prop
  | above : curve.first.voltage ≤ millivolts → LevelAt millivolts (curve.first.points / 100)
  | below : (∀ p ∈ curve.table, millivolts < p.voltage) → LevelAt millivolts 0
  | segment (pa pb : BatteryLevelPoint) : curve.Adjacent pa pb → pb.voltage ≤ millivolts →
      millivolts < pa.voltage → LevelAt millivolts (between pa pb millivolts)

variable {curve} {p q pa pb : BatteryLevelPoint} {millivolts : Int}

theorem table_falling (curve : CapacityCurve) :
    curve.table.Pairwise (fun a b => b.voltage < a.voltage ∧ b.points < a.points) := curve.falling

theorem first_mem (curve : CapacityCurve) : curve.first ∈ curve.table := List.mem_cons_self

theorem table_ne_nil (curve : CapacityCurve) : curve.table ≠ [] := List.cons_ne_nil _ _

theorem table_last (curve : CapacityCurve) : (curve.table.getLast curve.table_ne_nil).points = 0 := by
  have hlast := curve.last
  rw [← List.getLast_cons curve.two (a := curve.first)] at hlast
  exact hlast

/-- Two points of the table are the same or in the same order in both columns. -/
theorem order (hp : p ∈ curve.table) (hq : q ∈ curve.table) :
    p = q ∨ (q.voltage < p.voltage ∧ q.points < p.points) ∨
      (p.voltage < q.voltage ∧ p.points < q.points) := by
  obtain ⟨i, hi, rfl⟩ := List.mem_iff_getElem.mp hp
  obtain ⟨j, hj, rfl⟩ := List.mem_iff_getElem.mp hq
  have falling := List.pairwise_iff_getElem.mp curve.table_falling
  rcases Nat.lt_trichotomy i j with hij | hij | hij
  · exact Or.inr (Or.inl (falling i j hi hj hij))
  · subst hij
    exact Or.inl rfl
  · exact Or.inr (Or.inr (falling j i hj hi hij))

theorem points_le (hp : p ∈ curve.table) (hq : q ∈ curve.table) (h : p.voltage ≤ q.voltage) :
    p.points ≤ q.points := by
  rcases order hp hq with rfl | hgt | hlt
  · exact Int.le_refl _
  · omega
  · omega

theorem eq_of_voltage (hp : p ∈ curve.table) (hq : q ∈ curve.table)
    (h : p.voltage = q.voltage) : p = q := by
  rcases order hp hq with rfl | hgt | hlt
  · rfl
  · omega
  · omega

theorem points_nonneg (hp : p ∈ curve.table) : 0 ≤ p.points := by
  obtain ⟨i, hi, rfl⟩ := List.mem_iff_getElem.mp hp
  have hlast := curve.table_last
  rw [List.getLast_eq_getElem] at hlast
  by_cases hend : i = curve.table.length - 1
  · subst hend
    omega
  · have falling := List.pairwise_iff_getElem.mp curve.table_falling i (curve.table.length - 1) hi
      (by omega) (by omega)
    omega

theorem voltage_le_first (hp : p ∈ curve.table) : p.voltage ≤ curve.first.voltage := by
  rcases List.mem_cons.mp hp with rfl | hp
  · exact Int.le_refl _
  · exact ((List.pairwise_cons.mp curve.falling).1 p hp).1.le

namespace Adjacent

theorem upper_mem (adj : curve.Adjacent pa pb) : pa ∈ curve.table := by
  obtain ⟨above, below, h⟩ := adj
  rw [h]
  simp

theorem lower_mem (adj : curve.Adjacent pa pb) : pb ∈ curve.table := by
  obtain ⟨above, below, h⟩ := adj
  rw [h]
  simp

theorem falls (adj : curve.Adjacent pa pb) :
    pb.voltage < pa.voltage ∧ pb.points < pa.points := by
  obtain ⟨above, below, h⟩ := adj
  have falling := curve.table_falling
  rw [h, List.pairwise_append] at falling
  exact (List.pairwise_cons.mp falling.2.1).1 pb List.mem_cons_self

/-- There is no point between two neighbours. -/
theorem outside (adj : curve.Adjacent pa pb) (hp : p ∈ curve.table) :
    pa.voltage ≤ p.voltage ∨ p.voltage ≤ pb.voltage := by
  obtain ⟨above, below, h⟩ := adj
  have falling := curve.table_falling
  rw [h, List.pairwise_append] at falling
  obtain ⟨_, hlower, hupper⟩ := falling
  obtain ⟨_, hbelow⟩ := List.pairwise_cons.mp hlower
  rw [h, List.mem_append, List.mem_cons, List.mem_cons] at hp
  rcases hp with hp | rfl | rfl | hp
  · exact Or.inl (hupper p hp pa List.mem_cons_self).1.le
  · exact Or.inl (Int.le_refl _)
  · exact Or.inr (Int.le_refl _)
  · exact Or.inr ((List.pairwise_cons.mp hbelow).1 p hp).1.le

end Adjacent

namespace LevelAt

variable {level higher higherLevel : Int}

theorem nonneg (h : curve.LevelAt millivolts level) : 0 ≤ level := by
  cases h with
  | above =>
    have hfirst := points_nonneg curve.first_mem
    exact Int.ediv_nonneg hfirst (by decide)
  | below => exact Int.le_refl 0
  | segment pa pb adj low high =>
    obtain ⟨hvoltage, hpoints⟩ := adj.falls
    have hlower := Int.ediv_nonneg (points_nonneg adj.lower_mem) (show (0 : Int) ≤ 100 by decide)
    exact hlower.trans (between_ge hvoltage hpoints low)

/-- The level is at most that of any point above the voltage. -/
theorem le_points (h : curve.LevelAt millivolts level) (hp : p ∈ curve.table)
    (hle : millivolts ≤ p.voltage) : level ≤ p.points / 100 := by
  cases h with
  | above hfirst =>
    have hsame := voltage_le_first hp
    have heq : p = curve.first := eq_of_voltage hp curve.first_mem (by omega)
    rw [heq]
  | below => exact Int.ediv_nonneg (points_nonneg hp) (by decide)
  | segment pa pb adj low high =>
    obtain ⟨hvoltage, hpoints⟩ := adj.falls
    rcases adj.outside hp with hup | hdown
    · have hmore := points_le adj.upper_mem hp hup
      exact (between_le hvoltage hpoints high.le).trans (Int.ediv_le_ediv (by decide) hmore)
    · have heq : p = pb := eq_of_voltage hp adj.lower_mem (by omega)
      have hmillivolts : millivolts = pb.voltage := by
        rw [heq] at hle
        omega
      rw [heq, hmillivolts, between_voltage]

/-- The level is at least that of any point below the voltage. -/
theorem points_le_level (h : curve.LevelAt millivolts level) (hp : p ∈ curve.table)
    (hle : p.voltage ≤ millivolts) : p.points / 100 ≤ level := by
  cases h with
  | above =>
    exact Int.ediv_le_ediv (by decide) (points_le hp curve.first_mem (voltage_le_first hp))
  | below hall =>
    have := hall p hp
    omega
  | segment pa pb adj low high =>
    obtain ⟨hvoltage, hpoints⟩ := adj.falls
    rcases adj.outside hp with hup | hdown
    · omega
    · have hless := points_le hp adj.lower_mem hdown
      exact (Int.ediv_le_ediv (by decide) hless).trans (between_ge hvoltage hpoints low)

theorem mono (h : curve.LevelAt millivolts level) (h' : curve.LevelAt higher higherLevel)
    (hle : millivolts ≤ higher) : level ≤ higherLevel := by
  cases h' with
  | above hfirst =>
    rcases Int.le_total millivolts curve.first.voltage with low | high
    · exact h.le_points curve.first_mem low
    · cases h with
      | above => exact Int.le_refl _
      | below hall =>
        have := hall curve.first curve.first_mem
        omega
      | segment pa pb adj _ hhigh =>
        have := voltage_le_first adj.upper_mem
        omega
  | below hall =>
    have hbelow : level = 0 := by
      cases h with
      | above hfirst =>
        have := hall curve.first curve.first_mem
        omega
      | below => rfl
      | segment pa pb adj low _ =>
        have := hall pb adj.lower_mem
        omega
    exact hbelow.le
  | segment pa pb adj low high =>
    obtain ⟨hvoltage, hpoints⟩ := adj.falls
    by_cases hsegment : pb.voltage ≤ millivolts
    · have hsame := between_mono hvoltage hpoints hle
      have hlevel : level = between pa pb millivolts := by
        cases h with
        | above hfirst =>
          have := voltage_le_first adj.upper_mem
          omega
        | below hall =>
          have := hall pb adj.lower_mem
          omega
        | segment pa' pb' adj' low' high' =>
          have hlow := adj.outside adj'.lower_mem
          have hlow' := adj'.outside adj.lower_mem
          have hhigh := adj.outside adj'.upper_mem
          have hhigh' := adj'.outside adj.upper_mem
          have hpb : pb' = pb := eq_of_voltage adj'.lower_mem adj.lower_mem (by omega)
          have hpa : pa' = pa := eq_of_voltage adj'.upper_mem adj.upper_mem (by omega)
          rw [hpa, hpb]
      rw [hlevel]
      exact hsame
    · exact (h.le_points adj.lower_mem (by omega)).trans (between_ge hvoltage hpoints low)

end LevelAt

/-- The search ends above the first point, below the last or between two neighbours. -/
theorem code_cases (curve : CapacityCurve) (millivolts : Int) :
    (curve.first.voltage ≤ millivolts ∧
      batteryChargeLevel curve.table millivolts = .ok (curve.first.points / 100)) ∨
    ((∀ p ∈ curve.table, millivolts < p.voltage) ∧
      batteryChargeLevel curve.table millivolts = .ok 0) ∨
    ∃ pa pb, curve.Adjacent pa pb ∧ pb.voltage ≤ millivolts ∧ millivolts < pa.voltage ∧
      batteryChargeLevel curve.table millivolts = interpolate pa pb millivolts := by
  have hfirst := points_nonneg curve.first_mem
  by_cases top : millivolts ≥ curve.first.voltage
  · refine Or.inl ⟨top, ?_⟩
    rw [← Int.tdiv_eq_ediv_of_nonneg hfirst]
    exact if_pos top
  · refine Or.inr ?_
    rcases findLowerBound_spec millivolts curve.table_ne_nil curve.table_falling curve.table_last 0
      with ⟨hfound, hall⟩ | ⟨above, pb, below, htable, hfound, low, habove⟩
    · refine Or.inl ⟨hall, ?_⟩
      unfold batteryChargeLevel
      simp only [table] at hfound ⊢
      rw [if_neg top, hfound]
    · have hne : above ≠ [] := by
        rintro rfl
        have heq : curve.first = pb := (List.cons.inj htable).1
        rw [heq] at top
        exact top low
      obtain ⟨before, pa, rfl⟩ : ∃ before pa, above = before ++ [pa] :=
        ⟨above.dropLast, above.getLast hne, (List.dropLast_concat_getLast hne).symm⟩
      have hupper : curve.table[before.length]? = some pa := by simp [htable]
      have hlower : curve.table[before.length + 1]? = some pb := by simp [htable]
      have hindex : 0 + (before ++ [pa]).length = before.length + 1 := by simp
      rw [hindex] at hfound
      refine Or.inr ⟨pa, pb, ⟨before, below, by simp [htable]⟩, low, habove pa (by simp), ?_⟩
      unfold batteryChargeLevel
      simp only [table] at hfound hupper hlower ⊢
      rw [if_neg top, hfound]
      simp only [hupper, hlower]

/-- The code reads off the curve, as long as no operation overflows. -/
theorem levelAt_of_code (curve : CapacityCurve) (millivolts : Int)
    (h : batteryChargeLevel curve.table millivolts ≠ .error .overflow) :
    ∃ level, batteryChargeLevel curve.table millivolts = .ok level ∧
      curve.LevelAt millivolts level := by
  rcases curve.code_cases millivolts with ⟨top, hcode⟩ | ⟨hall, hcode⟩ |
    ⟨pa, pb, adj, low, high, hcode⟩
  · exact ⟨_, hcode, .above top⟩
  · exact ⟨_, hcode, .below hall⟩
  · obtain ⟨hvoltage, hpoints⟩ := adj.falls
    rw [hcode] at h ⊢
    exact ⟨between pa pb millivolts,
      interpolate_eq hvoltage hpoints (points_nonneg adj.lower_mem) low h,
      .segment pa pb adj low high⟩

/-- On a table of non-negative `int`s, as `bat_capacity_curve` is, an overflow is one of the
product. -/
theorem overflow_of_product (curve : CapacityCurve) (millivolts : Int)
    (ints : ∀ p ∈ curve.table, 0 ≤ p.voltage ∧ p.voltage < 2 ^ 31 ∧ p.points < 2 ^ 31)
    (h : batteryChargeLevel curve.table millivolts = .error .overflow) :
    ∃ pa pb, curve.Adjacent pa pb ∧ pb.voltage ≤ millivolts ∧ millivolts < pa.voltage ∧
      2 ^ 31 ≤ (pa.points - pb.points) * (millivolts - pb.voltage) := by
  rcases curve.code_cases millivolts with ⟨_, hcode⟩ | ⟨_, hcode⟩ | ⟨pa, pb, adj, low, high, hcode⟩
  · rw [hcode] at h
    cases h
  · rw [hcode] at h
    cases h
  · rw [hcode] at h
    obtain ⟨hvoltage, hpoints⟩ := adj.falls
    obtain ⟨_, hupper, hmost⟩ := ints pa adj.upper_mem
    obtain ⟨hpositive, _, _⟩ := ints pb adj.lower_mem
    exact ⟨pa, pb, adj, low, high, interpolate_overflow hvoltage hpoints
      (points_nonneg adj.lower_mem) hpositive hupper hmost low high h⟩

end CapacityCurve

open CapacityCurve in
/-- While no operation overflows the level is defined, within bounds, exact at the points of the
table, and does not fall as the voltage rises. -/
theorem batteryChargeLevel_law (curve : CapacityCurve) (millivolts : Int)
    (noOverflow : batteryChargeLevel curve.table millivolts ≠ .error .overflow) :
    ∃ level, batteryChargeLevel curve.table millivolts = .ok level ∧
      0 ≤ level ∧ level ≤ curve.first.points / 100 ∧
      (∀ p ∈ curve.table, p.voltage = millivolts → level = p.points / 100) ∧
      ∀ higher higherLevel, millivolts ≤ higher →
        batteryChargeLevel curve.table higher = .ok higherLevel → level ≤ higherLevel := by
  obtain ⟨level, hcode, hlevel⟩ := levelAt_of_code curve millivolts noOverflow
  refine ⟨level, hcode, hlevel.nonneg, ?_, ?_, ?_⟩
  · have hfirst : curve.first ∈ curve.table := List.mem_cons_self
    rcases Int.le_total millivolts curve.first.voltage with low | high
    · exact hlevel.le_points hfirst low
    · exact hlevel.mono (.above high) (Int.le_refl _)
  · intro p hp hvoltage
    have hle := hlevel.le_points hp (by omega)
    have hge := hlevel.points_le_level hp (by omega)
    omega
  · intro higher higherLevel hle hhigher
    have hdefined : batteryChargeLevel curve.table higher ≠ .error .overflow := by
      rw [hhigher]
      simp
    obtain ⟨level', hcode', hlevel'⟩ := levelAt_of_code curve higher hdefined
    rw [hhigher] at hcode'
    cases Except.ok.inj hcode'
    exact hlevel.mono hlevel' hle

theorem batteryChargeLevel_law_3700 :
    batteryChargeLevel batCapacityCurve.table 3700 ≠ .error .overflow ∧
    ∃ level, batteryChargeLevel batCapacityCurve.table 3700 = .ok level ∧ 0 ≤ level := by
  have hdefined : batteryChargeLevel batCapacityCurve.table 3700 ≠ .error .overflow := by
    decide +kernel
  obtain ⟨level, hcode, hnonneg, _⟩ := batteryChargeLevel_law batCapacityCurve 3700 hdefined
  exact ⟨hdefined, level, hcode, hnonneg⟩

end MyMouse
