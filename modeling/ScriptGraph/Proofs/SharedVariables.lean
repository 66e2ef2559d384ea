import Mathlib.Data.List.Induction
import ScriptGraph.Services.Variables

/-!
# Views on one store

Any number of views work on the variables of a run, each with its own copy, and
others write to the store without a view.  Whatever the order of their actions,
the store is the outcome of all writes in this order: a write through a view
carries over one variable, never the copy.  And a copy holds what the store held
when the view was last brought up to date, with the view's own writes since
then.
-/

namespace ScriptGraph

open Json

theorem Table.insertAll_append {α : Type} (table : Table α)
    (first second : List (String × α)) :
    table.insertAll (first ++ second) =
      (table.insertAll first).insertAll second := by
  simp [insertAll]

/-- A variable store and the views on it, numbered in the order in which they
were made.  A view that is used up is `none`. -/
structure SharedVariables where
  store : VariableStore := .empty
  views : List (Option VariableView) := []
  deriving DecidableEq, Repr

namespace SharedVariables

inductive Action where
  | set (name : String) (value : Value)
  | replaceAll (values : Table Value)
  | init (defaults : Table Value)
  | attach (parent : Nat)
  | sync (view : Nat)
  | publish (view : Nat) (name : String) (value : Value)
  | final (view : Nat)
  deriving DecidableEq, Repr

def view? (shared : SharedVariables) (number : Nat) : Option VariableView :=
  shared.views[number]?.join

def step (shared : SharedVariables) : Action → Option SharedVariables
  | .set name value =>
    some { shared with store := shared.store.insert name value }
  | .replaceAll values => some { shared with store := values }
  | .init defaults =>
    let (view, store) := VariableView.init defaults
    some ⟨store, shared.views ++ [some view]⟩
  | .attach parent =>
    (shared.view? parent).map fun view =>
      { shared with views := shared.views ++ [some view.attach] }
  | .sync number =>
    (shared.view? number).map fun view =>
      { shared with
        views := shared.views.set number (some (view.sync shared.store)) }
  | .publish number name value =>
    (shared.view? number).map fun view =>
      let (written, store) := view.publish shared.store name value
      ⟨store, shared.views.set number (some written)⟩
  | .final number =>
    (shared.view? number).map fun _ =>
      { shared with views := shared.views.set number none }

def steps (shared : SharedVariables) (history : List Action) :
    Option SharedVariables :=
  history.foldlM step shared

def run (history : List Action) : Option SharedVariables :=
  steps {} history

/-! ## Reading a history -/

namespace Action

def onStore (store : VariableStore) : Action → VariableStore
  | .set name value => store.insert name value
  | .publish _ name value => store.insert name value
  | .replaceAll values => values
  | .init defaults => defaults
  | _ => store

def makesView : Action → Bool
  | .init _ => true
  | .attach _ => true
  | _ => false

def needs? : Action → Option Nat
  | .attach number => some number
  | .sync number => some number
  | .publish number _ _ => some number
  | .final number => some number
  | _ => none

def published? (number : Nat) : Action → Option (String × Value)
  | .publish writer name value =>
    if writer = number then some (name, value) else none
  | _ => none

end Action

def stored (history : List Action) : VariableStore :=
  history.foldl Action.onStore .empty

def made (history : List Action) : Nat :=
  history.countP Action.makesView

def published (number : Nat) (history : List Action) : List (String × Value) :=
  history.filterMap (Action.published? number)

/-- `Copies history number copy`: what the copy of a view has to be.  It was
last taken from the store when the view was brought up to date or made by
`init`, or else from its parent's copy. -/
inductive Copies : List Action → Nat → Table Value → Prop where
  | synced {earlier later : List Action} {number : Nat} :
      .sync number ∉ later →
      Copies (earlier ++ .sync number :: later) number
        ((stored earlier).insertAll (published number later))
  | initialized {earlier later : List Action} {defaults : Table Value} :
      .sync (made earlier) ∉ later →
      Copies (earlier ++ .init defaults :: later) (made earlier)
        (defaults.insertAll (published (made earlier) later))
  | attached {earlier later : List Action} {parent : Nat} {copy : Table Value} :
      .sync (made earlier) ∉ later → Copies earlier parent copy →
      Copies (earlier ++ .attach parent :: later) (made earlier)
        (copy.insertAll (published (made earlier) later))

/-! ## One action -/

namespace Action

def newView? (shared : SharedVariables) : Action → Option VariableView
  | .init defaults => some ⟨defaults⟩
  | .attach parent => shared.view? parent
  | _ => none

def onView? (number : Nat) (store : VariableStore) (action : Action)
    (view : VariableView) : Option VariableView :=
  match action with
  | .sync changed => some (if changed = number then ⟨store⟩ else view)
  | .publish changed name value =>
    some (if changed = number then ⟨view.snapshot.insert name value⟩ else view)
  | .final changed => if changed = number then none else some view
  | _ => some view

end Action

section Step

variable {shared next : SharedVariables} {action : Action} {number : Nat}

theorem step_isSome
    (h : ∀ number, action.needs? = some number → (shared.view? number).isSome) :
    (shared.step action).isSome := by
  cases action with
  | set name value => rfl
  | replaceAll values => rfl
  | init defaults => rfl
  | attach parent => simpa [step] using h parent rfl
  | sync number => simpa [step] using h number rfl
  | publish number name value => simpa [step] using h number rfl
  | final number => simpa [step] using h number rfl

theorem view?_of_le (h : shared.views.length ≤ number) :
    shared.view? number = none := by
  simp [view?, List.getElem?_eq_none h]

theorem view?_concat (store : VariableStore)
    (views : List (Option VariableView)) (view : VariableView) (number : Nat) :
    view? ⟨store, views ++ [some view]⟩ number =
      if number = views.length then some view
      else view? ⟨store, views⟩ number := by
  split
  · next hnew => simp [view?, hnew]
  · next hold =>
      by_cases hlt : number < views.length
      · simp [view?, List.getElem?_append_left hlt]
      · rw [view?_of_le (by simp; omega), view?_of_le (by simp; omega)]

theorem lt_length_of_view? {view : VariableView}
    (h : shared.view? number = some view) :
    number < shared.views.length := by
  by_contra outside
  rw [view?_of_le (Nat.le_of_not_lt outside)] at h
  cases h

theorem view?_set {changed : Nat} {view : VariableView}
    (hview : shared.view? changed = some view) (store : VariableStore)
    {new : Option VariableView} {change : VariableView → Option VariableView}
    (hself : changed = number → change view = new)
    (hother : changed ≠ number → ∀ other, change other = some other) :
    view? ⟨store, shared.views.set changed new⟩ number =
      if number = shared.views.length then none
      else (shared.view? number).bind change := by
  have inside := lt_length_of_view? hview
  split
  · next hlength => exact view?_of_le (by simp [hlength])
  · by_cases heq : changed = number
    · subst heq
      rw [hview, Option.bind_some, hself rfl]
      simp [view?, inside]
    · rw [show change = some from funext (hother heq), Option.bind_fun_some]
      simp [view?, heq]

structure Does (action : Action) (shared next : SharedVariables) : Prop where
  needed : ∀ number, action.needs? = some number →
    ∃ view, shared.view? number = some view
  store : next.store = action.onStore shared.store
  length : next.views.length = shared.views.length + made [action]
  view? : ∀ number, next.view? number =
    if number = shared.views.length then action.newView? shared
    else (shared.view? number).bind (action.onView? number shared.store)

theorem step_does (h : shared.step action = some next) :
    Does action shared next := by
  -- The number of a new view stands for none before.
  have length : shared.view? shared.views.length = none :=
    view?_of_le (Nat.le_refl _)
  cases action with
  | set name value =>
      cases h
      refine ⟨nofun, rfl, rfl, fun number => ?_⟩
      split
      · next heq => exact heq ▸ length
      · exact (Option.bind_fun_some _).symm
  | replaceAll values =>
      cases h
      refine ⟨nofun, rfl, rfl, fun number => ?_⟩
      split
      · next heq => exact heq ▸ length
      · exact (Option.bind_fun_some _).symm
  | init defaults =>
      cases h
      refine ⟨nofun, rfl, by simp [made, Action.makesView], fun number => ?_⟩
      rw [view?_concat]
      split
      · rfl
      · exact (Option.bind_fun_some _).symm
  | attach parent =>
      obtain ⟨view, hview, rfl⟩ := Option.map_eq_some_iff.mp h
      refine ⟨by simp [Action.needs?, hview], rfl,
        by simp [made, Action.makesView], ?_⟩
      intro number
      rw [view?_concat]
      split
      · exact hview.symm
      · exact (Option.bind_fun_some _).symm
  -- From here on one view is written in its place, and all others stay.
  | sync changed =>
      obtain ⟨view, hview, rfl⟩ := Option.map_eq_some_iff.mp h
      refine ⟨by simp [Action.needs?, hview], rfl,
        by simp [made, Action.makesView], ?_⟩
      intro number
      apply view?_set hview
      · intro heq
        simp [Action.onView?, heq, VariableView.sync]
      · intro hne other
        simp [Action.onView?, hne]
  | publish changed name value =>
      obtain ⟨view, hview, rfl⟩ := Option.map_eq_some_iff.mp h
      refine ⟨by simp [Action.needs?, hview], rfl,
        by simp [made, Action.makesView], ?_⟩
      intro number
      apply view?_set hview
      · intro heq
        simp [Action.onView?, heq]
      · intro hne other
        simp [Action.onView?, hne]
  | final changed =>
      obtain ⟨view, hview, rfl⟩ := Option.map_eq_some_iff.mp h
      refine ⟨by simp [Action.needs?, hview], rfl,
        by simp [made, Action.makesView], ?_⟩
      intro number
      apply view?_set hview
      · intro heq
        simp [Action.onView?, heq]
      · intro hne other
        simp [Action.onView?, hne]

end Step

/-! ## Whole histories -/

section Histories

variable {shared next : SharedVariables} {history earlier later : List Action}
  {action : Action} {number : Nat}

theorem steps_cons_iff :
    shared.steps (action :: later) = some next ↔
      ∃ between, shared.step action = some between ∧
      between.steps later = some next := by
  simp [steps, Option.bind_eq_some_iff]

theorem run_concat_iff :
    run (history ++ [action]) = some next ↔
      ∃ before, run history = some before ∧ before.step action = some next := by
  simp [run, steps, Option.bind_eq_some_iff]

theorem run_split_iff :
    run (earlier ++ action :: later) = some shared ↔
      ∃ before between, run earlier = some before ∧
      before.step action = some between ∧
        between.steps later = some shared := by
  simp [run, steps, Option.bind_eq_some_iff]

theorem run_store (ran : run history = some shared) :
    shared.store = stored history := by
  induction history using List.reverseRecOn generalizing shared with
  | nil =>
      cases ran
      rfl
  | append_singleton history action ih =>
      obtain ⟨before, hbefore, hstep⟩ := run_concat_iff.mp ran
      rw [(step_does hstep).store, ih hbefore]
      simp [stored]

theorem run_length (ran : run history = some shared) :
    shared.views.length = made history := by
  induction history using List.reverseRecOn generalizing shared with
  | nil =>
      cases ran
      rfl
  | append_singleton history action ih =>
      obtain ⟨before, hbefore, hstep⟩ := run_concat_iff.mp ran
      rw [(step_does hstep).length, ih hbefore]
      simp [made]

/-! ## The copy of a view -/

theorem steps_used_up (h : shared.steps later = some next)
    (hlength : number < shared.views.length)
    (hnone : shared.view? number = none) : next.view? number = none := by
  induction later generalizing shared with
  | nil =>
      cases h
      exact hnone
  | cons action later ih =>
      obtain ⟨between, hstep, hlater⟩ := steps_cons_iff.mp h
      have does := step_does hstep
      apply ih hlater
      · rw [does.length]
        omega
      · rw [does.view?, if_neg (Nat.ne_of_lt hlength), hnone, Option.bind_none]

theorem snapshot_of_onView? {store : VariableStore}
    {view changed : VariableView}
    (h : action.onView? number store view = some changed)
    (unsynced : action ≠ .sync number) :
    changed.snapshot = view.snapshot.insertAll (published number [action]) := by
  cases action with
  | set name value => cases h; rfl
  | replaceAll values => cases h; rfl
  | init defaults => cases h; rfl
  | attach parent => cases h; rfl
  | sync other =>
      have hne : other ≠ number := fun heq => unsynced (heq ▸ rfl)
      simp only [Action.onView?, if_neg hne] at h
      cases h
      rfl
  | publish writer name value =>
      by_cases heq : writer = number
      · simp only [Action.onView?, if_pos heq] at h
        cases h
        simp [published, Action.published?, heq, Table.insertAll]
      · simp only [Action.onView?, if_neg heq] at h
        cases h
        simp [published, Action.published?, heq, Table.insertAll]
  | final other =>
      simp only [Action.onView?] at h
      split at h
      · cases h
      · cases h
        rfl

theorem snapshot_of_steps {view last : VariableView}
    (h : shared.steps later = some next)
    (hview : shared.view? number = some view)
    (hlast : next.view? number = some last) (unsynced : .sync number ∉ later) :
    last.snapshot = view.snapshot.insertAll (published number later) := by
  induction later generalizing shared view with
  | nil =>
      cases h
      cases hview.symm.trans hlast
      rfl
  | cons action later ih =>
      obtain ⟨between, hstep, hlater⟩ := steps_cons_iff.mp h
      have does := step_does hstep
      have inside := lt_length_of_view? hview
      have changes := does.view? number
      rw [if_neg (Nat.ne_of_lt inside), hview, Option.bind_some] at changes
      rw [List.mem_cons, not_or] at unsynced
      obtain ⟨hfirst, hrest⟩ := unsynced
      cases hbetween : between.view? number with
      | none =>
          -- A view that is used up now would not be there at the end.
          have usedUp :=
            steps_used_up hlater (by rw [does.length]; omega) hbetween
          rw [usedUp] at hlast
          cases hlast
      | some changed =>
          rw [hbetween] at changes
          have hchanged := snapshot_of_onView? changes.symm (Ne.symm hfirst)
          rw [ih hlater hbetween hrest, hchanged, ← Table.insertAll_append,
            published, published, ← List.filterMap_append]
          rfl

theorem Copies.eq_snapshot {copy : Table Value}
    (copies : Copies history number copy) {view : VariableView}
    (ran : run history = some shared)
    (hview : shared.view? number = some view) : copy = view.snapshot := by
  induction copies generalizing shared view with
  | @synced earlier later number unsynced =>
      obtain ⟨before, between, hbefore, hstep, hlater⟩ := run_split_iff.mp ran
      have does := step_does hstep
      obtain ⟨old, hold⟩ := does.needed number rfl
      have taken : between.view? number = some ⟨stored earlier⟩ := by
        rw [does.view?, if_neg (Nat.ne_of_lt (lt_length_of_view? hold)), hold,
          ← run_store hbefore]
        simp [Action.onView?]
      exact (snapshot_of_steps hlater taken hview unsynced).symm
  | @initialized earlier later defaults unsynced =>
      obtain ⟨before, between, hbefore, hstep, hlater⟩ := run_split_iff.mp ran
      have taken : between.view? (made earlier) = some ⟨defaults⟩ := by
        rw [(step_does hstep).view?, if_pos (run_length hbefore).symm,
          Action.newView?]
      exact (snapshot_of_steps hlater taken hview unsynced).symm
  | @attached earlier later parent copy unsynced copies ih =>
      obtain ⟨before, between, hbefore, hstep, hlater⟩ := run_split_iff.mp ran
      have does := step_does hstep
      obtain ⟨old, hold⟩ := does.needed parent rfl
      have taken : between.view? (made earlier) = some old := by
        rw [does.view?, if_pos (run_length hbefore).symm, Action.newView?, hold]
      rw [ih hbefore hold, snapshot_of_steps hlater taken hview unsynced]

theorem Copies.concat {copy : Table Value} (copies : Copies history number copy)
    (hother : action ≠ .sync number) :
    ∃ next, Copies (history ++ [action]) number next := by
  cases copies with
  | synced unsynced =>
      rw [List.append_assoc]
      exact ⟨_, .synced (by simp [unsynced, hother.symm])⟩
  | initialized unsynced =>
      rw [List.append_assoc]
      exact ⟨_, .initialized (by simp [unsynced, hother.symm])⟩
  | attached unsynced copies =>
      rw [List.append_assoc]
      exact ⟨_, .attached (by simp [unsynced, hother.symm]) copies⟩

theorem exists_copies {view : VariableView} (ran : run history = some shared)
    (hview : shared.view? number = some view) :
    ∃ copy, Copies history number copy := by
  induction history using List.reverseRecOn generalizing shared number view with
  | nil =>
      cases ran
      cases hview
  | append_singleton history action ih =>
      obtain ⟨before, hbefore, hstep⟩ := run_concat_iff.mp ran
      rw [(step_does hstep).view?] at hview
      split at hview
      · next hnew =>
          rw [run_length hbefore] at hnew
          subst hnew
          cases action with
          | init defaults => exact ⟨_, .initialized (List.not_mem_nil)⟩
          | attach parent =>
              obtain ⟨copy, hcopy⟩ := ih hbefore hview
              exact ⟨_, .attached (List.not_mem_nil) hcopy⟩
          | set name value => cases hview
          | replaceAll values => cases hview
          | sync other => cases hview
          | publish writer name value => cases hview
          | final other => cases hview
      · obtain ⟨old, hold, -⟩ := Option.bind_eq_some_iff.mp hview
        obtain ⟨copy, hcopy⟩ := ih hbefore hold
        by_cases hsync : action = .sync number
        · subst hsync
          exact ⟨_, .synced (List.not_mem_nil)⟩
        · exact hcopy.concat hsync

end Histories

/-- What holds however the actions of the views and of others follow each
other. -/
structure NothingLost (history : List Action) (shared : SharedVariables) :
    Prop where
  store : shared.store = stored history
  copies : ∀ number view, shared.view? number = some view →
    ∀ copy, Copies history number copy ↔ copy = view.snapshot
  publish : ∀ number name value next,
    shared.step (.publish number name value) = some next →
    next.store.get? name = some value ∧
      ∀ other, other ≠ name → next.store.get? other = shared.store.get? other
  final : ∀ number view, shared.view? number = some view →
    view.final shared.store = stored history
  goesOn : ∀ action,
    (∀ number, action.needs? = some number → (shared.view? number).isSome) →
    (shared.step action).isSome

theorem no_update_lost (history : List Action) (shared : SharedVariables)
    (ran : run history = some shared) : NothingLost history shared where
  store := run_store ran
  copies number view hview copy := by
    constructor
    · intro copies
      exact copies.eq_snapshot ran hview
    · rintro rfl
      obtain ⟨copy, hcopy⟩ := exists_copies ran hview
      exact hcopy.eq_snapshot ran hview ▸ hcopy
  publish number name value next hstep := by
    rw [(step_does hstep).store]
    exact ⟨Table.get?_insert_self ..,
      fun other hne => Table.get?_insert_of_ne _ value hne⟩
  final number view _ := run_store ran
  goesOn action h := step_isSome h

def interleaving : List Action := [
  .init (.single "count" (.ofInt 0)), .attach 0, .publish 1 "count" (.ofInt 9),
  .publish 0 "index" (.ofInt 2), .publish 1 "count" (.ofInt 10), .sync 0,
  .set "count" (.ofInt 11)]

theorem interleaving_loses_nothing :
    ∃ shared, run interleaving = some shared ∧
      shared.store.entries = [("count", .ofInt 11), ("index", .ofInt 2)] ∧
      (shared.view? 0).map (fun view => view.snapshot.entries) =
        some [("count", .ofInt 10), ("index", .ofInt 2)] ∧
      (shared.view? 1).map (fun view => view.snapshot.entries) =
        some [("count", .ofInt 10)] ∧
      NothingLost interleaving shared := by
  refine ⟨_, rfl, ?_, ?_, ?_, no_update_lost interleaving _ rfl⟩
  · decide +kernel
  · decide +kernel
  · decide +kernel

end SharedVariables

end ScriptGraph
