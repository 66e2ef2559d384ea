import Mathlib.Data.List.Nodup
import ScriptGraph.Function
import ScriptGraph.Proofs.Endpoints

/-!
# What is wrong with a function

A function is well formed if it has both markers, every connection leads from a
node to a node, parameters have different names, and, if it is pure, no control
flows from its entry or into its exit.  The check of a function accepts those
and no others.  To a function that it refuses it lists one problem for each
place where something is wrong, in the order of the places.
-/

namespace ScriptGraph

def Connection.text (connection : Connection) : Side → String
  | .source => connection.source
  | .target => connection.target

inductive Place where
  | entryNode
  | exitNode
  | connection (index : Nat) (side : Side)
  | entryPin
  | exitPin
  | input (index : Nat)
  | output (index : Nat)
  deriving DecidableEq, Repr

namespace Place

def part : Place → Nat
  | .entryNode => 0
  | .exitNode => 0
  | .connection _ _ => 1
  | .entryPin => 2
  | .exitPin => 2
  | .input _ => 3
  | .output _ => 4

def position : Place → Nat
  | .entryNode => 0
  | .exitNode => 1
  | .connection index .source => 2 * index
  | .connection index .target => 2 * index + 1
  | .entryPin => 0
  | .exitPin => 1
  | .input index => index
  | .output index => index

def Before (place other : Place) : Prop :=
  place.part < other.part ∨
    place.part = other.part ∧ place.position < other.position

end Place

namespace Function

def HasNode (function : Function) (id : String) : Prop :=
  ∃ node ∈ function.nodes, node.id = id

instance (function : Function) (id : String) :
    Decidable (function.HasNode id) :=
  inferInstanceAs (Decidable (∃ node ∈ function.nodes, node.id = id))

def EntryWired (function : Function) : Prop :=
  ∃ connection ∈ function.connections, connection.source? =
    some ⟨entryMarker, "exec"⟩

instance (function : Function) : Decidable function.EntryWired :=
  inferInstanceAs (Decidable (∃ connection ∈ function.connections, _ = _))

def ExitWired (function : Function) : Prop :=
  ∃ connection ∈ function.connections, connection.target? =
    some ⟨exitMarker, "exec"⟩

instance (function : Function) : Decidable function.ExitWired :=
  inferInstanceAs (Decidable (∃ connection ∈ function.connections, _ = _))

structure WellFormed (function : Function) : Prop where
  entry : function.HasNode entryMarker
  exit : function.HasNode exitMarker
  ends : ∀ connection ∈ function.connections, ∀ side, ∃ endpoint,
    Endpoint.parse? (connection.text side) = some endpoint ∧
    function.HasNode endpoint.node
  inputs : (function.inputs.map Parameter.name).Nodup
  outputs : (function.outputs.map Parameter.name).Nodup
  entryPin : function.isPure = true → ¬ function.EntryWired
  exitPin : function.isPure = true → ¬ function.ExitWired

/-- `function.Wrong place problem`: what is wrong, and where. -/
inductive Wrong (function : Function) : Place → Problem → Prop where
  | noEntry : ¬ function.HasNode entryMarker →
      Wrong function .entryNode (.missingMarker entryMarker)
  | noExit : ¬ function.HasNode exitMarker →
      Wrong function .exitNode (.missingMarker exitMarker)
  | malformed {index : Nat} {side : Side} {connection : Connection} :
      function.connections[index]? = some connection →
      Endpoint.parse? (connection.text side) = none →
      Wrong function (.connection index side)
        (.malformedEndpoint (connection.text side))
  | unknown {index : Nat} {side : Side} {connection : Connection}
      {endpoint : Endpoint} :
      function.connections[index]? = some connection →
      Endpoint.parse? (connection.text side) = some endpoint →
      ¬ function.HasNode endpoint.node →
      Wrong function (.connection index side) (.unknownNode side endpoint.node)
  | entryWired : function.isPure = true → function.EntryWired →
      Wrong function .entryPin .entryWired
  | exitWired : function.isPure = true → function.ExitWired →
    Wrong function .exitPin .exitWired
  | repeatedInput {earlier index : Nat} {name : String} : earlier < index →
      (function.inputs.map Parameter.name)[earlier]? = some name →
      (function.inputs.map Parameter.name)[index]? = some name →
      Wrong function (.input index) (.repeatedInput name)
  | repeatedOutput {earlier index : Nat} {name : String} : earlier < index →
      (function.outputs.map Parameter.name)[earlier]? = some name →
      (function.outputs.map Parameter.name)[index]? = some name →
      Wrong function (.output index) (.repeatedOutput name)

theorem wellFormed_iff {function : Function} :
    function.WellFormed ↔ ∀ place problem, ¬ function.Wrong place problem := by
  constructor
  · intro formed place problem wrong
    cases wrong with
    | noEntry missing => exact missing formed.entry
    | noExit missing => exact missing formed.exit
    | malformed hconnection hparse =>
        obtain ⟨endpoint, hendpoint, -⟩ :=
          formed.ends _ (List.mem_of_getElem? hconnection) _
        rw [hparse] at hendpoint
        cases hendpoint
    | unknown hconnection hparse missing =>
        obtain ⟨endpoint, hendpoint, hnode⟩ :=
          formed.ends _ (List.mem_of_getElem? hconnection) _
        cases hparse.symm.trans hendpoint
        exact missing hnode
    | entryWired isPure wired => exact formed.entryPin isPure wired
    | exitWired isPure wired => exact formed.exitPin isPure wired
    | repeatedInput hlt hearlier hindex =>
        have inside := (List.getElem?_eq_some_iff.mp hindex).1
        exact List.nodup_iff_getElem?_ne_getElem?.mp
          formed.inputs _ _ hlt inside (hearlier.trans hindex.symm)
    | repeatedOutput hlt hearlier hindex =>
        have inside := (List.getElem?_eq_some_iff.mp hindex).1
        exact List.nodup_iff_getElem?_ne_getElem?.mp
          formed.outputs _ _ hlt inside (hearlier.trans hindex.symm)
  · intro nothing
    constructor
    · by_contra missing
      exact nothing _ _ (.noEntry missing)
    · by_contra missing
      exact nothing _ _ (.noExit missing)
    · intro connection hconnection side
      obtain ⟨index, hindex⟩ := List.getElem?_of_mem hconnection
      cases hparse : Endpoint.parse? (connection.text side) with
      | none => exact absurd (.malformed hindex hparse) (nothing _ _)
      | some endpoint =>
          refine ⟨endpoint, rfl, ?_⟩
          by_contra missing
          exact nothing _ _ (.unknown hindex hparse missing)
    · rw [List.nodup_iff_getElem?_ne_getElem?]
      intro earlier index hlt inside heq
      have hindex := List.getElem?_eq_getElem inside
      exact nothing _ _ (.repeatedInput hlt (heq.trans hindex) hindex)
    · rw [List.nodup_iff_getElem?_ne_getElem?]
      intro earlier index hlt inside heq
      have hindex := List.getElem?_eq_getElem inside
      exact nothing _ _ (.repeatedOutput hlt (heq.trans hindex) hindex)
    · intro isPure wired
      exact nothing _ _ (.entryWired isPure wired)
    · intro isPure wired
      exact nothing _ _ (.exitWired isPure wired)

/-! ## The checks one by one -/

abbrev Check := Place × Option Problem

def markerChecks (function : Function) : List Check :=
  [(.entryNode, entryMarker), (.exitNode, exitMarker)].map
    fun (place, marker) =>
    (place, if function.HasNode marker then none else
      some (.missingMarker marker))

def connectionChecks (function : Function) : List Check :=
  function.connections.zipIdx.flatMap fun (connection, index) =>
    [Side.source, Side.target].map fun side =>
      (.connection index side, function.endProblem? side (connection.text side))

def pinChecks (function : Function) : List Check :=
  [(.entryPin, if function.isPure ∧ function.EntryWired then
    some .entryWired else none),
    (.exitPin, if function.isPure ∧ function.ExitWired then
      some .exitWired else none)]

def nameChecks (place : Nat → Place) (problem : String → Problem)
    (names : List String) : List Check :=
  names.zipIdx.map fun (name, index) =>
    (place index, if name ∈ names.take index then some (problem name) else none)

def checks (function : Function) : List Check :=
  function.markerChecks ++ function.connectionChecks ++ function.pinChecks ++
    nameChecks .input .repeatedInput (function.inputs.map Parameter.name) ++
    nameChecks .output .repeatedOutput (function.outputs.map Parameter.name)

/-! ### The problems are what the checks find -/

theorem any_eq_hasNode (function : Function) (id : String) :
    (function.nodes.any fun node => node.id == id) =
      decide (function.HasNode id) := by
  rw [Bool.eq_iff_iff, decide_eq_true_iff]
  simp [HasNode]

theorem missingMarkers_eq (function : Function) :
    function.missingMarkers = function.markerChecks.filterMap Prod.snd := by
  simp only [missingMarkers, markerChecks, any_eq_hasNode]
  by_cases hentry : function.HasNode entryMarker <;>
    by_cases hexit : function.HasNode exitMarker <;> simp [hentry, hexit]

theorem wiringProblems_eq (function : Function) :
    function.wiringProblems = function.connectionChecks.filterMap Prod.snd := by
  have each : ∀ connection : Connection,
      (function.endProblem? .source connection.source).toList ++
          (function.endProblem? .target connection.target).toList =
        [Side.source, Side.target].filterMap fun side =>
          function.endProblem? side (connection.text side) := by
    intro connection
    cases hsource : function.endProblem? .source connection.source <;>
      cases htarget : function.endProblem? .target connection.target <;>
        simp [Connection.text, hsource, htarget]
  simp only [wiringProblems, connectionChecks, List.filterMap_flatMap,
    List.filterMap_map, each]
  conv_lhs => rw [← List.zipIdx_map_fst 0 function.connections,
    List.flatMap_map]
  rfl

theorem target_eq_iff (connection : Connection) :
    connection.target = exitMarker ++ ".exec" ↔
      connection.target? = some ⟨exitMarker, "exec"⟩ := by
  constructor
  · intro htext
    rw [Connection.target?, htext]
    exact @Endpoint.parse?_render ⟨exitMarker, "exec"⟩ (by decide) (by decide)
      (by decide)
  · intro hparse
    exact (Endpoint.render_of_parse? hparse).symm

theorem purityProblems_eq (function : Function) :
    function.purityProblems = function.pinChecks.filterMap Prod.snd := by
  have leaving :
      (function.connectionsFrom ⟨entryMarker, "exec"⟩).isEmpty = true ↔
      ¬ function.EntryWired := by
    simp [connectionsFrom, Connection.leaves, EntryWired]
  have arriving : (function.connections.any fun connection =>
      connection.target == exitMarker ++ ".exec") = true ↔
        function.ExitWired := by
    simp [target_eq_iff, ExitWired]
  simp only [purityProblems, pinChecks, leaving, arriving]
  cases function.isPure <;> by_cases hentry : function.EntryWired <;>
    by_cases hexit : function.ExitWired <;> simp [hentry, hexit]

theorem repetitions_eq (seen names : List String) :
    repetitions seen names = names.zipIdx.filterMap fun (name, index) =>
      if name ∈ seen ∨ name ∈ names.take index then some name else none := by
  induction names generalizing seen with
  | nil => rfl
  | cons first rest ih =>
      -- Once the first name is behind, it counts as seen, whether or not it has
      -- been put down.
      have later : ∀ seen',
          (∀ name, name ∈ seen' ↔ name = first ∨ name ∈ seen) →
          (rest.zipIdx 1).filterMap (fun (name, index) =>
            if name ∈ seen ∨ name ∈ (first :: rest).take index then
              some name else none) =
          repetitions seen' rest := by
        intro seen' hseen'
        rw [ih, List.zipIdx_succ, List.filterMap_map]
        apply List.filterMap_congr
        rintro ⟨name, index⟩ -
        simp [hseen', or_assoc, or_left_comm]
      rw [List.zipIdx_cons, List.filterMap_cons]
      by_cases hseen : first ∈ seen
      · rw [later seen fun name => ⟨.inr, fun h => h.elim (· ▸ hseen) id⟩]
        simp [repetitions, hseen]
      · rw [later (first :: seen) fun name => List.mem_cons]
        simp [repetitions, hseen]

theorem problems_eq (function : Function) :
    function.problems = function.checks.filterMap Prod.snd := by
  have names : ∀ (place : Nat → Place) (problem : String → Problem)
      (names : List String), (repetitions [] names).map problem =
        (nameChecks place problem names).filterMap Prod.snd := by
    intro place problem names
    rw [repetitions_eq, nameChecks, List.filterMap_map, List.map_filterMap]
    apply List.filterMap_congr
    rintro ⟨name, index⟩ -
    by_cases hearlier : name ∈ names.take index <;> simp [hearlier]
  simp only [problems, checks, List.filterMap_append, missingMarkers_eq,
    wiringProblems_eq, purityProblems_eq, ← names]

/-! ### The order of the checks -/

structure Ordered (first last : Nat) (checks : List Check) : Prop where
  ordered : checks.Pairwise fun check later => check.1.Before later.1
  parts : ∀ check ∈ checks, first ≤ check.1.part ∧ check.1.part < last

theorem Ordered.append {first middle last : Nat} {front back : List Check}
    (hfront : Ordered first middle front) (hback : Ordered middle last back)
    (hfirst : first ≤ middle) (hlast : middle ≤ last) :
    Ordered first last (front ++ back) := by
  constructor
  · refine List.pairwise_append.mpr ⟨hfront.ordered, hback.ordered, ?_⟩
    intro check hcheck later hlater
    have before := (hfront.parts check hcheck).2
    have after := (hback.parts later hlater).1
    exact .inl (Nat.lt_of_lt_of_le before after)
  · intro check hcheck
    rcases List.mem_append.mp hcheck with h | h
    · have parts := hfront.parts check h
      omega
    · have parts := hback.parts check h
      omega

theorem zipIdx_ascending {α : Type} (items : List α) :
    items.zipIdx.Pairwise fun a b => a.2 < b.2 := by
  rw [← List.pairwise_map, List.zipIdx_map_snd]
  exact List.pairwise_lt_range'

theorem markerChecks_ordered (function : Function) :
    Ordered 0 1 function.markerChecks := by
  constructor <;> simp [markerChecks, Place.Before, Place.part, Place.position]

theorem connectionChecks_ordered (function : Function) :
    Ordered 1 2 function.connectionChecks := by
  constructor
  · refine List.pairwise_flatMap.mpr ⟨?_, (zipIdx_ascending _).imp ?_⟩
    · rintro ⟨connection, index⟩ -
      simp [Place.Before, Place.part, Place.position]
    · rintro ⟨connection, index⟩ ⟨other, next⟩ hlt check hcheck later hlater
      obtain ⟨side, -, rfl⟩ := List.mem_map.mp hcheck
      obtain ⟨otherSide, -, rfl⟩ := List.mem_map.mp hlater
      refine .inr ⟨rfl, ?_⟩
      cases side <;> cases otherSide <;> simp only [Place.position] <;> omega
  · intro check hcheck
    obtain ⟨⟨connection, index⟩, -, hsides⟩ := List.mem_flatMap.mp hcheck
    obtain ⟨side, -, rfl⟩ := List.mem_map.mp hsides
    simp [Place.part]

theorem pinChecks_ordered (function : Function) :
    Ordered 2 3 function.pinChecks := by
  constructor <;> simp [pinChecks, Place.Before, Place.part, Place.position]

theorem nameChecks_ordered {place : Nat → Place} {number : Nat}
    (problem : String → Problem) (names : List String)
    (hpart : ∀ index, (place index).part = number)
    (hposition : ∀ index, (place index).position = index) :
    Ordered number (number + 1) (nameChecks place problem names) := by
  constructor
  · refine List.pairwise_map.mpr ((zipIdx_ascending names).imp ?_)
    rintro ⟨name, index⟩ ⟨other, next⟩ hlt
    simp only [Place.Before, hpart, hposition]
    exact .inr ⟨trivial, hlt⟩
  · intro check hcheck
    obtain ⟨⟨name, index⟩, -, rfl⟩ := List.mem_map.mp hcheck
    simp [hpart]

theorem checks_ordered (function : Function) : Ordered 0 5 function.checks := by
  have inputs := @nameChecks_ordered .input 3 .repeatedInput
    (function.inputs.map Parameter.name) (fun _ => rfl) (fun _ => rfl)
  have outputs := @nameChecks_ordered .output 4 .repeatedOutput
    (function.outputs.map Parameter.name) (fun _ => rfl) (fun _ => rfl)
  have front := function.markerChecks_ordered.append
    function.connectionChecks_ordered (by decide) (by decide)
  have middle := front.append function.pinChecks_ordered (by decide) (by decide)
  exact (middle.append inputs (by decide) (by decide)).append outputs
    (by decide) (by decide)

/-! ### What the checks find is wrong -/

theorem endProblem?_eq_some_iff {function : Function} {side : Side}
    {text : String} {problem : Problem} :
    function.endProblem? side text = some problem ↔
      (Endpoint.parse? text = none ∧ problem = .malformedEndpoint text) ∨
        ∃ endpoint, Endpoint.parse? text = some endpoint ∧
        ¬ function.HasNode endpoint.node ∧
          problem = .unknownNode side endpoint.node := by
  unfold endProblem?
  cases Endpoint.parse? text with
  | none => simp [eq_comm]
  | some endpoint =>
      by_cases hnode : function.HasNode endpoint.node <;>
        simp [any_eq_hasNode, hnode, eq_comm]

theorem mem_take_iff {names : List String} {index : Nat} {name : String} :
    name ∈ names.take index ↔
      ∃ earlier, earlier < index ∧ names[earlier]? = some name := by
  simp [List.mem_iff_getElem?, List.getElem?_take]

theorem mem_nameChecks_iff {place : Nat → Place} {problem : String → Problem}
    {names : List String} {found : Place} {what : Problem} :
    (found, some what) ∈ nameChecks place problem names ↔
      ∃ earlier index name, earlier < index ∧ names[earlier]? = some name ∧
        names[index]? = some name ∧ found = place index ∧
        what = problem name := by
  simp only [nameChecks, List.mem_map, Prod.exists,
    List.mk_mem_zipIdx_iff_getElem?, Prod.mk.injEq,
    Option.ite_none_right_eq_some, Option.some.injEq, mem_take_iff]
  constructor
  · rintro ⟨name, index, hname, rfl, ⟨earlier, hlt, hearlier⟩, rfl⟩
    exact ⟨earlier, index, name, hlt, hearlier, hname, rfl, rfl⟩
  · rintro ⟨earlier, index, name, hlt, hearlier, hname, rfl, rfl⟩
    exact ⟨name, index, hname, rfl, ⟨earlier, hlt, hearlier⟩, rfl⟩

theorem mem_connectionChecks_iff {function : Function} {found : Place}
    {what : Problem} :
    (found, some what) ∈ function.connectionChecks ↔
      ∃ index side connection, function.connections[index]? = some connection ∧
        found = .connection index side ∧
        function.endProblem? side (connection.text side) = some what := by
  simp only [connectionChecks, List.mem_flatMap, Prod.exists,
    List.mk_mem_zipIdx_iff_getElem?, List.mem_map, Prod.mk.injEq]
  constructor
  · rintro ⟨connection, index, hconnection, side, -, rfl, hproblem⟩
    exact ⟨index, side, connection, hconnection, rfl, hproblem⟩
  · rintro ⟨index, side, connection, hconnection, rfl, hproblem⟩
    exact ⟨connection, index, hconnection, side,
      by cases side <;> simp, rfl, hproblem⟩

theorem mem_markerChecks_iff {function : Function} {found : Place}
    {what : Problem} :
    (found, some what) ∈ function.markerChecks ↔
      (found = .entryNode ∧ ¬ function.HasNode entryMarker ∧
        what = .missingMarker entryMarker) ∨
        (found = .exitNode ∧ ¬ function.HasNode exitMarker ∧
          what = .missingMarker exitMarker) := by
  simp [markerChecks]

theorem mem_pinChecks_iff {function : Function} {found : Place}
    {what : Problem} :
    (found, some what) ∈ function.pinChecks ↔
      (found = .entryPin ∧ (function.isPure = true ∧ function.EntryWired) ∧
        what = .entryWired) ∨
        (found = .exitPin ∧ (function.isPure = true ∧ function.ExitWired) ∧
          what = .exitWired) := by
  simp [pinChecks]

theorem mem_checks_iff {function : Function} {place : Place}
    {problem : Problem} :
    (place, some problem) ∈ function.checks ↔ function.Wrong place problem := by
  simp only [checks, List.mem_append, mem_markerChecks_iff,
    mem_connectionChecks_iff, mem_pinChecks_iff, mem_nameChecks_iff,
    endProblem?_eq_some_iff]
  constructor
  · rintro ((((hmarker | hconnection) | hpin) | hinput) | houtput)
    · rcases hmarker with ⟨rfl, missing, rfl⟩ | ⟨rfl, missing, rfl⟩
      · exact .noEntry missing
      · exact .noExit missing
    · obtain ⟨index, side, connection, hconnection, rfl, hend⟩ := hconnection
      rcases hend with ⟨hparse, rfl⟩ | ⟨endpoint, hparse, missing, rfl⟩
      · exact .malformed hconnection hparse
      · exact .unknown hconnection hparse missing
    · rcases hpin with ⟨rfl, ⟨isPure, wired⟩, rfl⟩ | ⟨rfl, ⟨isPure, wired⟩, rfl⟩
      · exact .entryWired isPure wired
      · exact .exitWired isPure wired
    · obtain ⟨earlier, index, name, hlt, hearlier, hindex, rfl, rfl⟩ := hinput
      exact .repeatedInput hlt hearlier hindex
    · obtain ⟨earlier, index, name, hlt, hearlier, hindex, rfl, rfl⟩ := houtput
      exact .repeatedOutput hlt hearlier hindex
  · intro wrong
    cases wrong with
    | noEntry missing =>
        exact .inl (.inl (.inl (.inl (.inl ⟨rfl, missing, rfl⟩))))
    | noExit missing =>
        exact .inl (.inl (.inl (.inl (.inr ⟨rfl, missing, rfl⟩))))
    | malformed hconnection hparse =>
        exact .inl (.inl
          (.inl (.inr ⟨_, _, _, hconnection, rfl, .inl ⟨hparse, rfl⟩⟩)))
    | unknown hconnection hparse missing =>
        exact .inl (.inl
          (.inl (.inr ⟨_, _, _, hconnection, rfl,
            .inr ⟨_, hparse, missing, rfl⟩⟩)))
    | entryWired isPure wired =>
        exact .inl (.inl (.inr (.inl ⟨rfl, ⟨isPure, wired⟩, rfl⟩)))
    | exitWired isPure wired =>
        exact .inl (.inl (.inr (.inr ⟨rfl, ⟨isPure, wired⟩, rfl⟩)))
    | repeatedInput hlt hearlier hindex =>
        exact .inl (.inr ⟨_, _, _, hlt, hearlier, hindex, rfl, rfl⟩)
    | repeatedOutput hlt hearlier hindex =>
        exact .inr ⟨_, _, _, hlt, hearlier, hindex, rfl, rfl⟩

/-! ## The check as a whole -/

def findings (function : Function) : List (Place × Problem) :=
  function.checks.filterMap fun (place, found) => found.map fun problem =>
    (place, problem)

theorem findings_problems (function : Function) :
    function.findings.map Prod.snd = function.problems := by
  rw [findings, problems_eq, List.map_filterMap]
  apply List.filterMap_congr
  rintro ⟨place, found⟩ -
  cases found <;> rfl

theorem findings_ordered (function : Function) :
    function.findings.Pairwise fun finding later =>
      finding.1.Before later.1 := by
  refine List.pairwise_filterMap.mpr (function.checks_ordered.ordered.imp ?_)
  rintro ⟨place, found⟩ ⟨later, foundLater⟩ before finding hfinding other hother
  obtain ⟨problem, -, rfl⟩ := Option.map_eq_some_iff.mp hfinding
  obtain ⟨otherProblem, -, rfl⟩ := Option.map_eq_some_iff.mp hother
  exact before

theorem mem_findings_iff {function : Function} {place : Place}
    {problem : Problem} :
    (place, problem) ∈ function.findings ↔ function.Wrong place problem := by
  rw [← mem_checks_iff, findings, List.mem_filterMap]
  constructor
  · rintro ⟨⟨checked, found⟩, member, hfinding⟩
    obtain ⟨_, rfl, heq⟩ := Option.map_eq_some_iff.mp hfinding
    cases heq
    exact member
  · intro member
    exact ⟨_, member, rfl⟩

theorem problems_eq_nil_iff {function : Function} :
    function.problems = [] ↔ function.WellFormed := by
  rw [wellFormed_iff, ← findings_problems, List.map_eq_nil_iff,
    List.eq_nil_iff_forall_not_mem]
  constructor
  · intro none place problem wrong
    exact none (place, problem) (mem_findings_iff.mpr wrong)
  · rintro nothing ⟨place, problem⟩ member
    exact nothing place problem (mem_findings_iff.mp member)

/-- A function is accepted exactly if it is well formed.  Otherwise the problems
are listed under its name: one for each place where something is wrong, in the
order of the places. -/
theorem validate_lists_problems (function : Function) (name : String) :
    (function.validate name = .ok () ↔ function.WellFormed) ∧
      (¬ function.WellFormed → ∃ found : List (Place × Problem),
        function.validate name = .error ⟨name, found.map Prod.snd⟩ ∧
          found.Pairwise (fun finding later => finding.1.Before later.1) ∧
          ∀ place problem, (place, problem) ∈ found ↔
            function.Wrong place problem) := by
  have accepted : function.problems.isEmpty = true ↔ function.WellFormed := by
    rw [List.isEmpty_iff, problems_eq_nil_iff]
  unfold validate
  constructor
  · rw [← accepted]
    cases function.problems.isEmpty <;> simp
  · intro malformed
    rw [if_neg (malformed ∘ accepted.mp)]
    refine ⟨function.findings, ?_, function.findings_ordered,
      fun _ _ => mem_findings_iff⟩
    rw [findings_problems]

def broken : Function where
  isPure := true
  inputs := [{ name := "x", type := .number }, { name := "x", type := .number }]
  nodes := [⟨entryMarker, "", .origin, .null⟩]
  connections := [⟨"__entry__.exec", "ghost.exec"⟩]

theorem broken_listed :
    ¬ broken.WellFormed ∧ ∃ found : List (Place × Problem),
      broken.validate "double" = .error ⟨"double", found.map Prod.snd⟩ ∧
        found.map Prod.snd =
          [.missingMarker "__exit__", .unknownNode .target "ghost", .entryWired,
          .repeatedInput "x"] ∧
        ∀ place problem, (place, problem) ∈ found ↔
          broken.Wrong place problem := by
  have refused : broken.validate "double" =
      .error ⟨"double", [.missingMarker "__exit__",
      .unknownNode .target "ghost", .entryWired, .repeatedInput "x"]⟩ := by
    decide +kernel
  have exact := validate_lists_problems broken "double"
  have malformed : ¬ broken.WellFormed := by
    rw [← exact.1, refused]
    nofun
  obtain ⟨found, hfound, -, hexact⟩ := exact.2 malformed
  have listed := hfound.symm.trans refused
  simp only [Except.error.injEq, InvalidFunction.mk.injEq, true_and] at listed
  exact ⟨malformed, found, hfound, listed, hexact⟩

end Function

end ScriptGraph
