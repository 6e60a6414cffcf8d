import MyMouse.CollectorWakeup
import Mathlib.Data.List.Lex
import Mathlib.Data.List.Sort
import Mathlib.Data.Char

namespace MyMouse

open BitMask Runs

theorem append_lt_append_iff {α : Type} [LinearOrder α] (common : List α) {xs ys : List α} :
    common ++ xs < common ++ ys ↔ xs < ys := by
  have hmono : StrictMono (common ++ ·) := fun _ _ lt => List.append_left_lt lt
  exact hmono.lt_iff_lt

/-- The operands of `HID_SOURCE_REGISTER` that make up the symbol; the priority is the macro's name,
which the preprocessor does not replace next to `##`. -/
structure HidSourceRegistration where
  name : String
  priority : String
  deriving DecidableEq

namespace HidSourceRegistration

/-- `_hid_source_##_priority##_##_name`. -/
def symbol (source : HidSourceRegistration) : List Char :=
  "_hid_source_".toList ++ source.priority.toList ++ "_".toList ++ source.name.toList

/-- The name of the priority's macro and the name of the source, as they are written. -/
def operands (source : HidSourceRegistration) : List Char :=
  source.priority.toList ++ "_".toList ++ source.name.toList

theorem symbol_eq (source : HidSourceRegistration) :
    source.symbol = "_hid_source_".toList ++ source.operands := by
  have regroup (w x y z : List Char) : w ++ x ++ y ++ z = w ++ (x ++ y ++ z) := by
    rw [List.append_assoc, List.append_assoc, List.append_assoc]
  exact regroup _ source.priority.toList _ source.name.toList

theorem symbol_lt_iff {a b : HidSourceRegistration} :
    a.symbol < b.symbol ↔ a.operands < b.operands := by
  rw [symbol_eq a, symbol_eq b]
  exact append_lt_append_iff _

end HidSourceRegistration

/-- What is linked together: no symbol is defined twice. -/
structure HidSourceRegistry where
  sources : List HidSourceRegistration
  distinct : (sources.map HidSourceRegistration.symbol).Nodup

namespace HidSourceRegistry

def BySymbol (a b : HidSourceRegistration) : Prop := a.symbol ≤ b.symbol

instance (a b : HidSourceRegistration) : Decidable (BySymbol a b) :=
  inferInstanceAs (Decidable (a.symbol ≤ b.symbol))

instance : Std.Total BySymbol := ⟨fun a b => le_total a.symbol b.symbol⟩

instance : IsTrans HidSourceRegistration BySymbol := ⟨fun _ _ _ => le_trans⟩

/-- The list the linker makes of the section, in which a source's id is its index. -/
def linked (registry : HidSourceRegistry) : List HidSourceRegistration :=
  registry.sources.insertionSort BySymbol

theorem linked_sorted (registry : HidSourceRegistry) :
    registry.linked.Pairwise (fun a b => a.symbol < b.symbol) := by
  have hsorted : registry.linked.Pairwise BySymbol := List.pairwise_insertionSort _ _
  have hperm : registry.linked.Perm registry.sources := List.perm_insertionSort _ _
  have hnodup : (registry.linked.map HidSourceRegistration.symbol).Nodup :=
    (hperm.map _).nodup_iff.mpr registry.distinct
  have hne : registry.linked.Pairwise (fun a b => a.symbol ≠ b.symbol) :=
    List.pairwise_map.mp hnodup
  exact (hsorted.and hne).imp (fun h => lt_of_le_of_ne h.1 h.2)

/-- The sources with these ids, in this order. -/
def pick (registry : HidSourceRegistry) (ids : List Nat) : List HidSourceRegistration :=
  ids.filterMap (fun id => registry.linked[id]?)

end HidSourceRegistry

/-- The source whose filler a step runs. -/
def ranFiller (p : CollectorWakeup × WakeupStep) : Option Nat :=
  match p.2, p.1.collector.pc with
  | .filler _, .filling sourceId _ => some sourceId
  | _, _ => none

def ranFillers (trace : List (CollectorWakeup × WakeupStep)) : List Nat :=
  (trace.filterMap ranFiller).reverse

namespace Collector

/-- The thread is in the loop over the events it has taken. -/
def serving (c : Collector) : Bool :=
  match c.pc with
  | .serving _ | .filling _ _ => true
  | _ => false

/-- The sources the loop has still to serve. -/
def unserved (c : Collector) : List Nat :=
  match c.pc with
  | .serving events => setBits events
  | .filling sourceId events => sourceId :: setBits events
  | _ => []

theorem unserved_of_pc {c d : Collector} (h : d.pc = c.pc) : d.unserved = c.unserved := by
  unfold unserved
  rw [h]

end Collector

variable {numSources : Nat} {s t : CollectorWakeup} {trace : List (CollectorWakeup × WakeupStep)}

theorem thread_unserved (h : CollectorWakeup.threadStep numSources s = some t)
    (hs : s.collector.serving = true) (ht : t.collector.serving = true) :
    t.collector.unserved = s.collector.unserved := by
  unfold CollectorWakeup.threadStep at h
  have hstart : s.collector.pc ≠ .start := by
    intro hpc
    simp [Collector.serving, hpc] at hs
  rw [if_neg (fun both => hstart both.1)] at h
  obtain ⟨c, hc, rfl⟩ := Option.map_eq_some_iff.mp h
  have hseen : s.seen.collector.pc = s.collector.pc := rfl
  have hafter : (s.seen.afterThread c).collector = c := rfl
  rw [hafter] at ht ⊢
  rw [← Collector.unserved_of_pc hseen]
  cases Collector.threadStep_of_step hc with
  | fill events hpc hne =>
    unfold Collector.unserved
    rw [hpc]
    exact (setBits_cons hne).symm
  | take events hpc _ | start hpc | sample hpc | receive _ hpc _ | restart _ hpc _ | clear hpc =>
    rw [hseen] at hpc
    simp [Collector.serving, hpc] at hs
  | sink hpc => simp [Collector.serving] at ht

theorem filler_unserved {report : HidReport}
    (h : CollectorWakeup.step numSources s (.filler report) = some t) :
    (ranFiller (s, .filler report)).toList ++ t.collector.unserved = s.collector.unserved := by
  simp only [CollectorWakeup.step] at h
  split at h
  next sourceId events hpc =>
    cases Option.some.inj h
    simp only [ranFiller, Collector.unserved, Collector.filled, hpc]
    rfl
  next => simp at h

/-- What a step runs and what is left after it is what was left before it. -/
theorem step_unserved {a : WakeupStep} (h : CollectorWakeup.step numSources s a = some t)
    (hs : s.collector.serving = true) (ht : t.collector.serving = true) :
    (ranFiller (s, a)).toList ++ t.collector.unserved = s.collector.unserved := by
  cases a with
  | thread => exact thread_unserved h hs ht
  | filler report => exact filler_unserved h
  | notify sourceId =>
    simp only [CollectorWakeup.step] at h
    split at h
    next =>
      cases Option.some.inj h
      exact Collector.unserved_of_pc (Collector.notify_posts sourceId s.collector).pc
    next => simp at h
  | setEnabled caller sourceId enabled =>
    simp only [CollectorWakeup.step] at h
    split at h
    next =>
      split at h
      next => cases Option.some.inj h; rfl
      next => cases Option.some.inj h; rfl
    next => simp at h
  | storeEnabled caller =>
    simp only [CollectorWakeup.step] at h
    split at h
    next => cases Option.some.inj h; rfl
    next => simp at h
  | postChanged caller =>
    simp only [CollectorWakeup.step] at h
    split at h
    next => cases Option.some.inj h; rfl
    next => simp at h

theorem ranFillers_cons (p : CollectorWakeup × WakeupStep) :
    ranFillers (p :: trace) = ranFillers trace ++ (ranFiller p).toList := by
  unfold ranFillers
  cases h : ranFiller p with
  | none => simp [h]
  | some sourceId => simp [h]

theorem run_unserved {s₀ : CollectorWakeup}
    (run : Run (CollectorWakeup.step numSources) s₀ trace s)
    (loop : AllSteps (fun s _ => s.collector.serving = true) trace)
    (hs : s.collector.serving = true) :
    ranFillers trace ++ s.collector.unserved = s₀.collector.unserved := by
  induction run with
  | start => rfl
  | @next trace s a t _ hstep ih =>
    obtain ⟨before, rest⟩ := allSteps_cons.mp loop
    rw [ranFillers_cons, List.append_assoc, step_unserved hstep before hs]
    exact ih rest before

/-- Whatever else runs between the steps of the loop, it serves the events it has taken from
the least id to the greatest. -/
theorem ranFillers_eq_setBits {s₀ : CollectorWakeup} {events : BitVec 32}
    (run : Run (CollectorWakeup.step numSources) s₀ trace s)
    (taken : s₀.collector.pc = .serving events)
    (loop : AllSteps (fun s _ => s.collector.serving = true) trace)
    (done : s.collector.pc = .serving 0#32) : ranFillers trace = setBits events := by
  have hserving : s.collector.serving = true := by
    unfold Collector.serving
    rw [done]
  have hrun := run_unserved run loop hserving
  have hstart : s₀.collector.unserved = setBits events := by
    unfold Collector.unserved
    rw [taken]
  have hend : s.collector.unserved = [] := by
    unfold Collector.unserved
    rw [done]
    exact setBits_zero
  rw [hstart, hend, List.append_nil] at hrun
  exact hrun

theorem pairwise_filterMap_getElem {α : Type} {R : α → α → Prop} {l : List α}
    (sorted : l.Pairwise R) {ids : List Nat} (ascending : ids.Pairwise (· < ·)) :
    (ids.filterMap (fun id => l[id]?)).Pairwise R := by
  rw [List.pairwise_filterMap]
  refine ascending.imp ?_
  intro i j hij a ha b hb
  obtain ⟨hi, rfl⟩ := List.getElem?_eq_some_iff.mp ha
  obtain ⟨hj, rfl⟩ := List.getElem?_eq_some_iff.mp hb
  exact List.pairwise_iff_getElem.mp sorted i j hi hj hij

/-- A list in strict order by one key is in order by another exactly if the keys agree. -/
theorem pairwise_iff_keys_agree {α κ : Type} [Preorder κ] {key : α → κ} {S : α → α → Prop}
    {l : List α} (sorted : l.Pairwise (fun a b => key a < key b)) :
    l.Pairwise S ↔ ∀ a ∈ l, ∀ b ∈ l, key a < key b → S a b := by
  rw [List.pairwise_iff_getElem] at sorted ⊢
  constructor
  · intro h a ha b hb lt
    obtain ⟨i, hi, rfl⟩ := List.mem_iff_getElem.mp ha
    obtain ⟨j, hj, rfl⟩ := List.mem_iff_getElem.mp hb
    rcases Nat.lt_trichotomy i j with hij | hij | hij
    · exact h i j hi hj hij
    · subst hij
      exact absurd lt (lt_irrefl _)
    · exact absurd lt (lt_asymm (sorted j i hj hi hij))
  · intro h i j hi hj hij
    exact h _ (List.getElem_mem hi) _ (List.getElem_mem hj) (sorted i j hi hj hij)

theorem setBits_ascending {w : Nat} (mask : BitVec w) : (setBits mask).Pairwise (· < ·) :=
  List.pairwise_lt_range.filter _

/-- The fillers of the sources taken together run in the order of their operands as text, which
is that of the priorities exactly if the two agree on these sources. -/
theorem fillers_ascending_iff (registry : HidSourceRegistry) (priority : String → Fin 10)
    {events : BitVec 32} {s₀ : CollectorWakeup}
    (run : Run (CollectorWakeup.step registry.sources.length) s₀ trace s)
    (taken : s₀.collector.pc = .serving events)
    (loop : AllSteps (fun s _ => s.collector.serving = true) trace)
    (done : s.collector.pc = .serving 0#32) :
    (registry.pick (ranFillers trace)).Pairwise
      (fun a b => priority a.priority ≤ priority b.priority) ↔
    ∀ a ∈ registry.pick (setBits events), ∀ b ∈ registry.pick (setBits events),
      a.operands < b.operands → priority a.priority ≤ priority b.priority := by
  rw [ranFillers_eq_setBits run taken loop done]
  simp only [← HidSourceRegistration.symbol_lt_iff]
  exact pairwise_iff_keys_agree
    (pairwise_filterMap_getElem registry.linked_sorted (setBits_ascending events))

def mouseSources : HidSourceRegistry :=
  { sources :=
      [⟨"hid_src_buttons", "CONFIG_APP_HID_SOURCE_BUTTONS_PRIORITY"⟩,
        ⟨"hid_src_encoder", "CONFIG_APP_HID_SOURCE_ENCODER_PRIORITY"⟩,
        ⟨"hid_src_opt_sensor", "APP_HID_SOURCE_OPT_SENSOR_PRIORITY"⟩,
        ⟨"hid_src_shell", "CONFIG_APP_HID_SOURCE_SHELL_PRIORITY"⟩]
    distinct := by decide +kernel }

/-- The defaults of Kconfig. -/
def defaultPriority (macroName : String) : Fin 10 :=
  if macroName = "CONFIG_APP_HID_SOURCE_BUTTONS_PRIORITY" then 3
  else if macroName = "CONFIG_APP_HID_SOURCE_ENCODER_PRIORITY" then 5
  else if macroName = "APP_HID_SOURCE_OPT_SENSOR_PRIORITY" then 1
  else 7

/-- The collector with the events of the first four sources just taken. -/
def allTaken : CollectorWakeup :=
  { CollectorWakeup.start with collector := { Collector.reset with pc := .serving 0b1111#32 } }

def serveFour : List WakeupStep :=
  [.thread, .filler .zero, .thread, .filler .zero, .thread, .filler .zero, .thread, .filler .zero]

theorem exists_serveFour :
    ∃ trace s, Run (CollectorWakeup.step mouseSources.sources.length) allTaken trace s ∧
      AllSteps (fun s _ => s.collector.serving = true) trace ∧
      s.collector.pc = .serving 0#32 := by
  have hreplay : (replay
      (guarded (fun s _ => s.collector.serving = true)
        (CollectorWakeup.step mouseSources.sources.length)) allTaken serveFour).any
      (fun s => decide (s.collector.pc = .serving 0#32)) = true := by decide +kernel
  obtain ⟨trace, s, run, _, hdone⟩ := exists_run_of_replay hreplay
  obtain ⟨plain, loop⟩ := run.of_guarded
  exact ⟨trace, s, plain, loop, of_decide_eq_true hdone⟩

theorem fillers_ascending_iff_defaults :
    ∃ trace s, Run (CollectorWakeup.step mouseSources.sources.length) allTaken trace s ∧
      (mouseSources.pick (ranFillers trace)).Pairwise
        (fun a b => defaultPriority a.priority ≤ defaultPriority b.priority) := by
  obtain ⟨trace, s, run, loop, done⟩ := exists_serveFour
  refine ⟨trace, s, run, ?_⟩
  exact (fillers_ascending_iff mouseSources defaultPriority run rfl loop done).mpr
    (by decide +kernel)

/-- The encoder is given the highest priority, and runs after the optical sensor and the buttons. -/
theorem encoder_priority_ignored :
    ∃ trace s, Run (CollectorWakeup.step mouseSources.sources.length) allTaken trace s ∧
      s.collector.pc = .serving 0#32 ∧
      (mouseSources.pick (ranFillers trace)).map HidSourceRegistration.name =
        ["hid_src_opt_sensor", "hid_src_buttons", "hid_src_encoder", "hid_src_shell"] ∧
      ¬ (mouseSources.pick (ranFillers trace)).Pairwise (fun a b =>
        Function.update defaultPriority "CONFIG_APP_HID_SOURCE_ENCODER_PRIORITY" 0 a.priority ≤
          Function.update defaultPriority "CONFIG_APP_HID_SOURCE_ENCODER_PRIORITY" 0 b.priority) := by
  obtain ⟨trace, s, run, loop, done⟩ := exists_serveFour
  have hran := ranFillers_eq_setBits run rfl loop done
  refine ⟨trace, s, run, done, ?_, ?_⟩
  · rw [hran]
    decide +kernel
  · rw [hran]
    decide +kernel

end MyMouse
