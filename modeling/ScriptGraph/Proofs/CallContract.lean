import ScriptGraph.Proofs.FunctionProblems
import ScriptGraph.Proofs.Moves
import ScriptGraph.Proofs.Simulation

/-!
# The contract of a call

A call is refused if its node names no function, if the function has problems,
or if too many calls enclose it.  All of this is found out before anything is
done: a call that is refused leaves every part of the state as it was, and no
executor is run on the way.

A call that is not refused returns, whatever happens in the body.  It returns a
value for each of the declared results and for nothing else, and of the caller
it changes the count of visits and the end of the list of diagnostics.
-/

namespace ScriptGraph

open Json

/-! ## Parameters and their values -/

namespace Parameter

variable {parameters : List Parameter}

theorem keysOf_values (supplied : Table Value) :
    keysOf (parameters.map fun parameter =>
      (parameter.name, parameter.value supplied)) =
      parameters.map Parameter.name := by
  simp [keysOf]

theorem get?_values (distinct : (parameters.map Parameter.name).Nodup)
    (supplied : Table Value) {parameter : Parameter}
    (h : parameter ∈ parameters) :
    (values parameters supplied).get? parameter.name =
      some (((supplied.get? parameter.name).or parameter.default).getD
        .null) := by
  have entered : (parameter.name, parameter.value supplied) ∈
      parameters.map fun parameter =>
        (parameter.name, parameter.value supplied) :=
    List.mem_map.mpr ⟨parameter, h, rfl⟩
  refine (Table.get?_insertAll_of_mem .empty
    (by rwa [keysOf_values]) entered).trans ?_
  unfold Parameter.value
  cases supplied.get? parameter.name with
  | some value => rfl
  | none => cases parameter.default <;> rfl

theorem contains_values (distinct : (parameters.map Parameter.name).Nodup)
    (supplied : Table Value) (name : String) :
    (values parameters supplied).contains name = true ↔
      name ∈ parameters.map Parameter.name := by
  constructor
  · intro h
    by_contra hmem
    have hnone : (values parameters supplied).get? name = none :=
      Table.get?_insertAll_of_notMem .empty (by rwa [keysOf_values])
    simp [Table.contains, hnone] at h
  · intro h
    obtain ⟨parameter, hparameter, rfl⟩ := List.mem_map.mp h
    simp [Table.contains, get?_values distinct supplied hparameter]

end Parameter

namespace Engine

/-! ## Refusals -/

/-- The conditions under which a call is refused. -/
def CallRefused (setup : Setup) (node : Node) (depth : Nat) : Prop :=
  let name := (node.configText? "function").getD ""
  setup.functions.get? name = none ∨
    (∃ function, setup.functions.get? name = some function ∧
      function.validate name ≠ .ok ()) ∨
    setup.limits.maxCallDepth.toNat ≤ depth

variable {setup : Setup} {node : Node} {depth : Nat}

theorem callee_error_iff :
    (∃ cause, callee setup node depth = .error cause) ↔
      CallRefused setup node depth := by
  unfold callee CallRefused functionName
  cases hfunction : setup.functions.get?
    ((node.configText? "function").getD "") with
  | none => simp [hfunction]
  | some function =>
      cases hvalid : function.validate
        ((node.configText? "function").getD "") with
      | error invalid => simp [hfunction, hvalid]
      | ok checked =>
          by_cases hdepth : depth < setup.limits.maxCallDepth.toNat
          · simp [hfunction, hvalid, hdepth]
          · simp [hfunction, hvalid, hdepth, Nat.le_of_not_lt hdepth]

theorem callee_outputs_nodup {function : Function}
    (h : callee setup node depth = .ok function) :
    (function.outputs.map Parameter.name).Nodup := by
  have formed := Function.problems_eq_nil_iff.mp (callee_ok h).2.1
  exact formed.outputs

/-! ## What a call leaves -/

/-- Nothing has changed, and the machine gets over the call in one step, in
which it runs no executor. -/
structure LeavesNoTrace (setup : Setup) (node : Node) (inputs : Table Value)
    (state : RunState) :
    Prop where
  unchanged : (call setup node inputs state).2 = state
  runsNothing : ∀ (job : Machine.Job) scope stack more callers pending,
    job.node = node → job.how = .call →
    let config : Machine.Config :=
      ⟨scope, stack, ⟨.job job, [], inputs⟩ :: more, state, callers, pending⟩
    config.invocation? setup = none ∧
      Machine.StepsTo setup config (Machine.conclude setup job
        ((call setup node inputs state).1.map (Output.proceed "then"))
        { config with gatherings := more })

/-- The function returns: `gathered` are the inputs of the exit marker when the
walk of the body has ended. -/
structure Returns (setup : Setup) (node : Node) (inputs : Table Value)
    (state : RunState) (function : Function) (gathered : Table Value) :
    Prop where
  gathered_eq : gathered =
    (gather setup ⟨function.graph, true⟩ (call setup) exitMarker
    (walkBody setup ⟨function.graph, true⟩ (call setup) function
      (enterBody function inputs state))).1
  results : ∃ values, (call setup node inputs state).1 = .ok values ∧
    (∀ name, values.contains name = true ↔
      name ∈ function.outputs.map Parameter.name) ∧
    ∀ parameter ∈ function.outputs, values.get? parameter.name =
      some (((gathered.get? parameter.name).or parameter.default).getD .null)
  outputs : (call setup node inputs state).2.activation.outputs =
    state.activation.outputs
  pulling : (call setup node inputs state).2.activation.pulling =
    state.activation.pulling
  depth : (call setup node inputs state).2.activation.depth =
    state.activation.depth
  steps : state.activation.steps ≤
    (call setup node inputs state).2.activation.steps
  diagnostics : ∃ added,
      (call setup node inputs state).2.activation.diagnostics.toList =
      state.activation.diagnostics.toList ++ added ∧
    ∀ diagnostic ∈ added, ∃ inner, diagnostic.node = node.id ++ "/" ++ inner

theorem call_of_callee_error {state : RunState} {cause : Failure}
    (inputs : Table Value)
    (h : callee setup node state.activation.depth = .error cause) :
    call setup node inputs state = (.error cause, state) := by
  rw [call_eq, callWith, h]

theorem leavesNoTrace_of_error {state : RunState} {cause : Failure}
    (inputs : Table Value)
    (h : callee setup node state.activation.depth = .error cause) :
    LeavesNoTrace setup node inputs state := by
  have hcall := call_of_callee_error inputs h
  refine ⟨by rw [hcall], ?_⟩
  rintro job scope stack more callers pending rfl hhow
  rw [hcall]
  constructor
  · obtain ⟨demand, node, how⟩ := job
    subst hhow
    rfl
  · simp only [Machine.StepsTo, Machine.step, Machine.perform, hhow, h]
    rfl

theorem leaveBody_diagnostics (caller : String) (body state : RunState) :
    (leaveBody caller body state).activation.diagnostics.toList =
      state.activation.diagnostics.toList ++
        body.activation.diagnostics.toList.map fun diagnostic =>
          diagnostic.within caller := by
  simp [leaveBody, RunState.syncVariables]

theorem returns_of_ok {state : RunState} {function : Function}
    (inputs : Table Value)
    (h : callee setup node state.activation.depth = .ok function) :
    ∃ gathered, Returns setup node inputs state function gathered := by
  have distinct := callee_outputs_nodup h
  have steady := call_steady setup node inputs state
  have hcall := call_eq setup node inputs state
  rw [callWith, h] at hcall
  refine ⟨_, rfl, ?_, ?_, steady.pulling, steady.depth, steady.steps, ?_⟩
  · rw [hcall]
    exact ⟨_, rfl, Parameter.contains_values distinct _,
      fun parameter hparameter => Parameter.get?_values distinct _ hparameter⟩
  · rw [hcall]
    rfl
  · rw [hcall]
    refine ⟨_, leaveBody_diagnostics _ _ _, fun diagnostic hdiagnostic => ?_⟩
    obtain ⟨inner, -, rfl⟩ := List.mem_map.mp hdiagnostic
    exact ⟨inner.node, rfl⟩

/-- A call fails exactly if the name in the node's configuration, which is
empty if there is none, is not that of a function, or the function does not
validate, or as many calls enclose it as the limit allows.  Then nothing has
been run and nothing has changed.  Otherwise the call returns, whatever happens
in the body, with a value for each declared result and no other: the one
gathered at the exit, else the default, else null.  The caller keeps its
outputs, its open pulls and its depth, forgets no visits, and has new
diagnostics only at the end and only under its own id. -/
theorem call_contract (setup : Setup) (node : Node) (inputs : Table Value)
    (state : RunState) :
    ((∃ cause, (call setup node inputs state).1 = .error cause) ↔
      CallRefused setup node state.activation.depth) ∧
    (CallRefused setup node state.activation.depth →
      LeavesNoTrace setup node inputs state) ∧
    (¬CallRefused setup node state.activation.depth →
      ∃ function gathered,
        setup.functions.get? ((node.configText? "function").getD "") =
          some function ∧
        Returns setup node inputs state function gathered) := by
  rw [← callee_error_iff]
  cases hcallee : callee setup node state.activation.depth with
  | error cause =>
      have refused := leavesNoTrace_of_error inputs hcallee
      refine ⟨?_, fun _ => refused, fun hnone => absurd ⟨cause, rfl⟩ hnone⟩
      simp [call_of_callee_error inputs hcallee]
  | ok function =>
      obtain ⟨gathered, returns⟩ := returns_of_ok inputs hcallee
      obtain ⟨values, hvalues, -⟩ := returns.results
      refine ⟨by simp [hvalues], by simp, fun _ => ?_⟩
      exact ⟨function, gathered, (callee_ok hcallee).1, returns⟩

end Engine

end ScriptGraph
