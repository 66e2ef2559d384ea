import ScriptGraph.Library
import ScriptGraph.Proofs.Naive

/-!
# What pure kinds leave alone

Executors are arbitrary functions of the services, so whether evaluating a
pure node has effects is up to the catalogue.  `PureKindsKeep` names a part of
the services that the executors of pure kinds do not touch.  In the library
they touch nothing at all.
-/

namespace ScriptGraph

open Json

namespace Engine

def PureKindsKeep {α : Type} (catalogue : Catalogue) (part : Services → α) :
    Prop :=
  ∀ kind entry, catalogue.lookup kind = some entry → entry.kind.isPure = true →
    ∀ inv services, part (entry.run inv services).2 = part services

theorem Naive.PureKindsRead.keep {α : Type} {catalogue : Catalogue}
    (reading : Naive.PureKindsRead catalogue) (part : Services → α) :
    PureKindsKeep catalogue part := by
  intro kind entry hlookup hpure inv services
  rw [reading kind entry hlookup hpure inv services]

end Engine

namespace Library

def ReadsIfPure (item : NodeKind × Executor) : Prop :=
  item.1.isPure = true → ∀ inv services, (item.2 inv services).2 = services

theorem reads_of_output (kind : NodeKind) (f : Invocation → Output) :
    ReadsIfPure (kind, .ofOutput f) :=
  fun _ _ _ => rfl

theorem reads_of_reading (kind : NodeKind)
    (f : Invocation → Services → Output) :
    ReadsIfPure (kind, .reading f) :=
  fun _ _ _ => rfl

theorem reads_of_impure {kind : NodeKind} (run : Executor)
    (h : kind.isPure = false) :
    ReadsIfPure (kind, run) := by
  intro hpure
  simp [h] at hpure

theorem math_reads : ∀ item ∈ Math.kinds, ReadsIfPure item := by
  simp only [Math.kinds, Math.binary, List.forall_mem_cons]
  simp [reads_of_output, reads_of_reading]

theorem logic_reads : ∀ item ∈ Logic.kinds, ReadsIfPure item := by
  simp only [Logic.kinds, Logic.binary, List.forall_mem_cons]
  simp [reads_of_output]

theorem comparison_reads : ∀ item ∈ Comparison.kinds, ReadsIfPure item := by
  simp only [Comparison.kinds, Comparison.fixed, List.forall_mem_cons]
  simp [reads_of_output]

theorem flowControl_reads : ∀ item ∈ FlowControl.kinds, ReadsIfPure item := by
  simp only [FlowControl.kinds, List.forall_mem_cons]
  simp [reads_of_impure]

theorem events_reads : ∀ item ∈ Events.kinds, ReadsIfPure item := by
  simp only [Events.kinds, List.forall_mem_cons]
  simp [reads_of_output, reads_of_impure]

theorem points_reads : ∀ item ∈ Points.kinds, ReadsIfPure item := by
  simp only [Points.kinds, List.forall_mem_cons]
  simp [reads_of_impure]

theorem utility_reads : ∀ item ∈ Utility.kinds, ReadsIfPure item := by
  simp only [Utility.kinds, List.forall_mem_cons]
  simp [reads_of_output, reads_of_reading, reads_of_impure]

theorem kinds_read : ∀ item ∈ Library.kinds, ReadsIfPure item := by
  simp only [Library.kinds, List.forall_mem_append]
  exact ⟨⟨⟨⟨⟨⟨math_reads, logic_reads⟩, comparison_reads⟩, flowControl_reads⟩,
    events_reads⟩, points_reads⟩, utility_reads⟩

theorem standard_reads : Engine.Naive.PureKindsRead Catalogue.standard := by
  refine Engine.Naive.pureKindsRead_registerAll ?_ kinds_read
  intro kind entry hlookup
  cases hlookup

end Library

end ScriptGraph
