import ScriptGraph.Proofs.Ledgers

/-!
# A node is pulled once

In one activation, pulls evaluate a node at most once, and the values that an
evaluation leaves are there for as long as the activation lasts, unless the
walk comes to execute the node itself.

A pull is begun only for a node without outputs.  When it is over there are
outputs, whatever has gone wrong, and outputs are never taken away: this is
why there is no second evaluation.  While the pull waits for a function, no
other can be begun in its activation.

A loop replaces the outputs of its node long after that has been executed.
But the node has had outputs ever since, so it is not one that is evaluated
later, and none of the loops under way then is for the node that is pulled.
-/

namespace ScriptGraph.Engine.Machine

open Json

/-! ## Before and after an evaluation -/

def Ledger.Pulls (ledger : Ledger) (id : String) : Prop :=
  ∃ job jobs, ledger.jobs = job :: jobs ∧ job.demand = .pull ∧ job.node.id = id

def Ledger.Calls (ledger : Ledger) (id : String) : Prop :=
  ledger.waits = true ∧ ledger.Pulls id

def Ledger.Spent (ledger : Ledger) (id : String) : Prop :=
  ledger.outputs.get? id ≠ none ∨ ledger.Calls id

/-- The node has these outputs, and nothing that the walk has begun is going
to replace them. -/
structure Ledger.Fixed (ledger : Ledger) (id : String) (values : Table Value) :
    Prop where
  outputs : ledger.outputs.get? id = some values
  notLooped : id ∉ ledger.loops
  notWaited : ledger.waits = true → ∀ job jobs, ledger.jobs = job :: jobs →
    job.demand = .visit → job.node.id ≠ id

def Ledger.Evaluated (ledger : Ledger) (id : String) : Prop :=
  ledger.Calls id ∨ ∃ values, ledger.Fixed id values

def Ledger.Keeps (ledger : Ledger) (id : String) (values : Table Value) :
    Prop :=
  ledger.Calls id ∨ ledger.outputs.get? id = some values

section Ledgers

variable {before after : Ledger} {performed? : Option Job} {id : String}
  {values : Table Value}

theorem Alters.evaluated (h : Alters before performed? after)
    (sound : before.Sound) (pulls : before.Pulls id)
    (done : performed? ≠ none ∨ before.waits = true) :
    after.Evaluated id := by
  obtain ⟨job, jobs, hjobs, hdemand, rfl⟩ := pulls
  cases h with
  | walk hloops =>
      have hwaits := done.resolve_left (by simp)
      exact .inl ⟨hwaits, job, jobs, hjobs, hdemand, rfl⟩
  | begin hwaits hloops hunset => simp [hwaits] at done
  | wait hwaits hothers => exact .inl ⟨rfl, job, jobs, hjobs, hdemand, rfl⟩
  | finish values hperformed hothers hapart hloops =>
      obtain ⟨rfl, -⟩ := List.cons.inj (hjobs.symm.trans hothers)
      have hunset := sound.unset job (by simp [hjobs]) hdemand
      refine .inr ⟨values, by simp, ?_, by simp⟩
      -- The node had no outputs until now, so no loop under way can be its own.
      rcases hloops with hloops | ⟨hvisit, -⟩
      · exact fun hid => sound.looped _ (hloops hid) hunset
      · simp [hdemand] at hvisit
  | iterate values hnode hnone hloops => simp [hjobs] at hnone

theorem Ledger.Evaluated.spent (evaluated : after.Evaluated id) :
    after.Spent id := by
  rcases evaluated with calls | ⟨values, fixed⟩
  · exact .inr calls
  · exact .inl (by simp [fixed.outputs])

theorem Alters.spent (h : Alters before performed? after) (sound : before.Sound)
    (spent : before.Spent id) : after.Spent id := by
  rcases spent with hset | ⟨hwaits, pulls⟩
  · left
    cases h with
    | walk hloops => exact hset
    | begin hwaits hloops hunset => exact hset
    | wait hwaits hjobs => exact hset
    | finish values hperformed hjobs hapart hloops =>
        exact get?_insert_ne_none hset _ _
    | iterate values hnode hjobs hloops => exact get?_insert_ne_none hset _ _
  · exact (h.evaluated sound pulls (.inr hwaits)).spent

theorem Alters.performed {job : Job} (h : Alters before performed? after)
    (hperformed : performed? = some job) :
    before.waits = false ∧ ∃ jobs, before.jobs = job :: jobs := by
  cases h with
  | walk hloops => cases hperformed
  | begin hwaits hloops hunset => cases hperformed
  | wait hwaits hjobs =>
      cases hperformed
      exact ⟨hwaits, _, hjobs⟩
  | finish values hlabel hjobs hapart hloops =>
      rw [hlabel] at hperformed
      split at hperformed
      · cases hperformed
      · next hwaits =>
          cases hperformed
          exact ⟨by simpa using hwaits, _, hjobs⟩
  | iterate values hnode hjobs hloops => cases hperformed

theorem Ledger.Sound.not_spent {job : Job} {jobs : List Job}
    (sound : before.Sound) (hwaits : before.waits = false)
    (hjobs : before.jobs = job :: jobs) (hdemand : job.demand = .pull) :
    ¬before.Spent job.node.id := by
  rintro (hset | ⟨hcalls, -⟩)
  · exact hset (sound.unset job (by simp [hjobs]) hdemand)
  · simp [hwaits] at hcalls

theorem Alters.fixed (h : Alters before performed? after) (sound : before.Sound)
    (untouched : ∀ job, performed? = some job → job.demand = .visit →
      job.node.id ≠ id)
    (fixed : before.Fixed id values) : after.Fixed id values := by
  obtain ⟨houtputs, hlooped, hwaited⟩ := fixed
  cases h with
  | walk hloops => exact ⟨houtputs, fun hid => hlooped (hloops hid), hwaited⟩
  | begin hwaits hloops hunset =>
      refine ⟨houtputs, fun hid => hlooped (hloops hid), fun hbegun => ?_⟩
      simp [hwaits] at hbegun
  | wait hwaits hjobs =>
      refine ⟨houtputs, hlooped, fun _ other others hothers => ?_⟩
      obtain ⟨rfl, -⟩ := List.cons.inj (hjobs.symm.trans hothers)
      exact untouched _ rfl
  | @finish job jobs loops found _ hperformed hjobs hapart hloops =>
      -- A pull of the node would find the outputs there, and a visit to it has
      -- either been waiting or is done in this very step; both are excluded.
      have hne : job.node.id ≠ id := by
        rintro rfl
        cases hdemand : job.demand with
        | pull =>
            have hunset := sound.unset job (by simp [hjobs]) hdemand
            simp [hunset] at houtputs
        | visit =>
            cases hwaits : before.waits with
            | true => exact hwaited hwaits job jobs hjobs hdemand rfl
            | false =>
                exact untouched job (by simp [hperformed, hwaits]) hdemand rfl
      refine ⟨?_, fun hid => ?_, by simp⟩
      · dsimp only
        rwa [Table.get?_insert_of_ne _ _ hne.symm]
      · rcases hloops with hloops | ⟨-, hloops⟩
        · exact hlooped (hloops hid)
        · rcases List.mem_cons.mp (hloops hid) with rfl | hid
          · exact hne rfl
          · exact hlooped hid
  | @iterate node loops found hnode hjobs hloops =>
      have hne : id ≠ node := by
        rintro rfl
        exact hlooped hnode
      refine ⟨?_, fun hid => hlooped (hloops hid), hwaited⟩
      dsimp only
      rwa [Table.get?_insert_of_ne _ _ hne]

end Ledgers

/-! ## Along an execution -/

def Config.does (demand : Demand) (depth : Nat) (id : String)
    (config : Config) : Bool :=
  (config.performsAt? depth).any fun job =>
    job.demand == demand && job.node.id == id

/-- A stretch of an execution that belongs to one activation: `depth` callers
are there all the time. -/
inductive Within (setup : Setup) (depth : Nat) (first : Config) :
    List Config → Config → Prop where
  | refl : depth ≤ first.callers.length → Within setup depth first [] first
  | tail {history : List Config} {config next : Config} :
      Within setup depth first history config → StepsTo setup config next →
      depth ≤ next.callers.length →
      Within setup depth first (history ++ [config]) next

section Executions

variable {setup : Setup} {first config next last : Config}
  {history : List Config} {depth : Nat} {id : String} {values : Table Value}

theorem does_eq_true {demand : Demand} : config.does demand depth id = true ↔
    ∃ job, config.performsAt? depth = some job ∧ job.demand = demand ∧
      job.node.id = id := by
  cases hperforms : config.performsAt? depth with
  | none => simp [Config.does, hperforms]
  | some job => simp [Config.does, hperforms]

theorem Within.reaches (h : Within setup depth first history last) :
    Reaches setup first last := by
  induction h with
  | refl => exact .refl
  | tail _ stepped _ ih => exact ih.tail stepped

theorem Within.last_le (h : Within setup depth first history last) :
    depth ≤ last.callers.length := by
  cases h with
  | refl hdepth => exact hdepth
  | tail _ _ hdepth => exact hdepth

theorem Within.first_le (h : Within setup depth first history last) :
    depth ≤ first.callers.length := by
  induction h with
  | refl hdepth => exact hdepth
  | tail _ _ _ ih => exact ih

theorem Within.alters (h : Within setup depth first history config)
    (regular : first.Regular setup) (stepped : StepsTo setup config next)
    (hnext : depth ≤ next.callers.length) :
    Alters (config.ledgerAt depth) (config.performsAt? depth)
      (next.ledgerAt depth) ∧ (config.ledgerAt depth).Sound := by
  have here := Reaches.regular h.reaches regular
  exact ⟨(step_moves stepped).alters here.nested here.ordered h.last_le hnext,
    here.sound depth h.last_le⟩

theorem StepsTo.evaluated (stepped : StepsTo setup config next)
    (regular : config.Regular setup)
    (evaluates : config.does .pull depth id = true)
    (hnext : depth ≤ next.callers.length) :
    (next.ledgerAt depth).Evaluated id := by
  obtain ⟨job, hperforms, hdemand, rfl⟩ := does_eq_true.mp evaluates
  have hdepth : depth ≤ config.callers.length := by
    unfold Config.performsAt? at hperforms
    split at hperforms
    · next heq => exact heq.ge
    · cases hperforms
  obtain ⟨alters, sound⟩ := (Within.refl hdepth).alters regular stepped hnext
  obtain ⟨-, jobs, hjobs⟩ := alters.performed hperforms
  exact alters.evaluated sound ⟨job, jobs, hjobs, hdemand, rfl⟩
    (.inl (by simp [hperforms]))

theorem Within.evaluations (h : Within setup depth first history last)
    (regular : first.Regular setup) :
    history.countP (Config.does .pull depth id) ≤ 1 ∧
      (0 < history.countP (Config.does .pull depth id) →
        (last.ledgerAt depth).Spent id) := by
  induction h with
  | refl => simp
  | @tail history config next within stepped hnext ih =>
      obtain ⟨alters, sound⟩ := within.alters regular stepped hnext
      rw [countP_concat]
      cases hdoes : config.does .pull depth id with
      | false =>
          refine ⟨ih.1, fun hcount => ?_⟩
          exact alters.spent sound (ih.2 hcount)
      | true =>
          obtain ⟨job, hperforms, hdemand, rfl⟩ := does_eq_true.mp hdoes
          obtain ⟨hwaits, jobs, hjobs⟩ := alters.performed hperforms
          have hnone :
              history.countP (Config.does .pull depth job.node.id) = 0 := by
            by_contra hcount
            exact sound.not_spent hwaits hjobs hdemand
              (ih.2 (Nat.pos_of_ne_zero hcount))
          have here := Reaches.regular within.reaches regular
          exact ⟨by simp [hnone],
            fun _ => (stepped.evaluated here hdoes hnext).spent⟩

theorem Alters.fixed_of_not_visited (h : Alters (config.ledgerAt depth)
      (config.performsAt? depth) (next.ledgerAt depth))
    (sound : (config.ledgerAt depth).Sound)
    (untouched : config.does .visit depth id = false)
    (fixed : (config.ledgerAt depth).Fixed id values) :
    (next.ledgerAt depth).Fixed id values := by
  refine h.fixed sound (fun job hperforms hdemand hid => ?_) fixed
  have visited : config.does .visit depth id = true :=
    does_eq_true.mpr ⟨job, hperforms, hdemand, hid⟩
  simp [untouched] at visited

theorem Within.evaluated (h : Within setup depth first history last)
    (regular : first.Regular setup)
    (evaluated : (first.ledgerAt depth).Evaluated id)
    (untouched : ∀ config ∈ history, config.does .visit depth id = false) :
    ((last.ledgerAt depth).Calls id ∧
      ∀ config ∈ history, (config.ledgerAt depth).Calls id) ∨
      ∃ values, (last.ledgerAt depth).Fixed id values ∧
        ∀ config ∈ history, (config.ledgerAt depth).Keeps id values := by
  induction h with
  | refl => simpa [Ledger.Evaluated] using evaluated
  | @tail history config next within stepped hnext ih =>
      obtain ⟨alters, sound⟩ := within.alters regular stepped hnext
      rw [List.forall_mem_append, List.forall_mem_singleton] at untouched
      simp only [List.forall_mem_append, List.forall_mem_singleton]
      rcases ih untouched.1 with ⟨calls, waited⟩ | ⟨values, fixed, kept⟩
      · rcases alters.evaluated sound calls.2 (.inr calls.1) with
          calling | ⟨values, fixed⟩
        · exact .inl ⟨calling, waited, calls⟩
        · exact .inr
            ⟨values, fixed, fun other hother => .inl (waited other hother),
              .inl calls⟩
      · have stays := alters.fixed_of_not_visited sound untouched.2 fixed
        exact .inr ⟨values, stays, kept, .inr fixed.outputs⟩

theorem Within.keeps (h : Within setup depth first history last)
    (regular : first.Regular setup)
    (evaluated : (first.ledgerAt depth).Evaluated id)
    (untouched : ∀ config ∈ history, config.does .visit depth id = false) :
    ∃ values, ∀ config ∈ history ++ [last],
      (config.ledgerAt depth).Keeps id values := by
  simp only [List.forall_mem_append, List.forall_mem_singleton]
  rcases h.evaluated regular evaluated untouched with
    ⟨calls, waited⟩ | ⟨values, fixed, kept⟩
  · exact ⟨.empty, fun config hconfig => .inl (waited config hconfig),
      .inl calls⟩
  · exact ⟨values, kept, .inr fixed.outputs⟩

end Executions

/-- Where the activation asks for a pin of the node, it is given the one of
these values. -/
def Config.Reads (setup : Setup) (depth : Nat) (id : String)
    (values : Table Value) (config : Config) : Prop :=
  ∀ purpose source pin wires inputs more, config.callers.length = depth →
    config.gatherings = ⟨purpose, (source, pin) :: wires, inputs⟩ :: more →
    source.node = id →
    StepsTo setup config { config with gatherings :=
      ⟨purpose, wires, overlay inputs pin (values.get? source.pin)⟩ :: more }

theorem Ledger.Keeps.reads {setup : Setup} {config : Config} {depth : Nat}
    {id : String} {values : Table Value}
    (kept : (config.ledgerAt depth).Keeps id values) :
    config.Reads setup depth id values := by
  intro purpose source pin wires inputs more hdepth hgatherings hsource
  rw [Config.ledgerAt, ledgerBelow_of_le hdepth.le] at kept
  rcases kept with ⟨hwaits, -⟩ | houtputs
  · cases hwaits
  · rw [← hsource] at houtputs
    have hcached : config.state.outputs? source.node = some values := houtputs
    simp only [StepsTo, step, hgatherings, bringNext, hcached]

/-- In every activation of a run, pulls evaluate a node at most once.  From the
evaluation on, the activation waits for the function that has been called, if
one has, and then has values for the node, which are the same and the ones
that everyone is given who asks for them, until the walk executes the node or
the activation ends. -/
theorem pulled_once (catalogue : Catalogue) (limits : Limits)
    (blueprint : Blueprint) (trigger : Trigger) (services : Services) :
    let setup := setupOf catalogue limits blueprint trigger
    let first := start catalogue blueprint trigger services
    (∃ final, Reaches setup first final ∧ Halted setup final ∧
      runBlueprint catalogue limits blueprint trigger services =
        (finalReport final.state, final.state.services)) ∧
    ∀ begun depth id, Reaches setup first begun →
      (∀ history last, Within setup depth begun history last →
        history.countP (Config.does .pull depth id) ≤ 1) ∧
      ∀ next history last, begun.does .pull depth id = true →
      StepsTo setup begun next → Within setup depth next history last →
        (∀ config ∈ history, config.does .visit depth id = false) →
        ∃ values, ∀ config ∈ history ++ [last],
          (config.ledgerAt depth).Keeps id values ∧
          config.Reads setup depth id values := by
  intro setup first
  refine ⟨run_reaches catalogue limits blueprint trigger services, ?_⟩
  intro begun depth id reached
  have regular : begun.Regular setup :=
    Reaches.regular reached
      (start_regular setup catalogue blueprint trigger services)
  constructor
  · intro history last within
    exact (within.evaluations regular).1
  · intro next history last evaluates stepped within untouched
    have evaluated := stepped.evaluated regular evaluates within.first_le
    obtain ⟨values, kept⟩ :=
      within.keeps (stepped.regular regular) evaluated untouched
    exact ⟨values,
      fun config hconfig => ⟨kept config hconfig, (kept config hconfig).reads⟩⟩

end ScriptGraph.Engine.Machine
