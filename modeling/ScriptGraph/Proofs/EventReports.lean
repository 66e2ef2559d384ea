import ScriptGraph.Proofs.CleanFailures
import ScriptGraph.Proofs.Records

/-!
# What an event node reports of its trigger

The entry `event/OnEvent` shows the trigger to the rest of the graph: the
payload as a whole, the fields of the payload one by one, and the name of the
event.  Payload and fields are always what they should be.  The name is too if
there is one.  If there is none, the pin for it should be null, but a payload
that has something else than a text under `event_type` is not overruled: what it
has there is what the pin carries.
-/

namespace ScriptGraph

open Json

/-! ## The values of an event -/

def Trigger.fields (trigger : Trigger) : Table Value :=
  (trigger.data.bind Value.asTable?).getD .empty

namespace Library.Events

/-- The data of a trigger, its fields, and `event` as what is behind it. -/
structure Shows (trigger : Trigger) (event : Value) (values : Table Value) :
    Prop where
  event : values.get? "event_type" = some event
  data : values.get? "data" = some (.ofOption trigger.data)
  fields : ∀ name, name ≠ "event_type" → name ≠ "data" →
    values.get? name = trigger.fields.get? name

def namedEvent (trigger : Trigger) : Value :=
  .ofOption (trigger.event?.map .text)

/-- The name of the event, or else what stands in its place in the data. -/
def shownEvent (trigger : Trigger) : Value :=
  match trigger.event? with
  | some name => .text name
  | none => .ofOption (trigger.fields.get? "event_type")

theorem Shows.unique {trigger : Trigger} {event other : Value}
    {values : Table Value} (first : Shows trigger event values)
    (second : Shows trigger other values) : event = other :=
  Option.some.inj (first.event.symm.trans second.event)

theorem shownEvent_eq_namedEvent_iff (trigger : Trigger) :
    shownEvent trigger = namedEvent trigger ↔
      (trigger.event? = none →
        ∀ value, trigger.fields.get? "event_type" = some value →
        value = .null) := by
  unfold shownEvent namedEvent
  cases trigger.event? with
  | some name => simp [Value.ofOption]
  | none => cases trigger.fields.get? "event_type" <;> simp [Value.ofOption]

theorem asTable?_ofOption (data : Option Value) :
    (Value.ofOption data).asTable?.getD .empty =
      (data.bind Value.asTable?).getD .empty := by
  cases data <;> rfl

theorem eventValues_eq (trigger : Trigger) :
    eventValues (.ofOption trigger.data) trigger.event? =
      (trigger.fields.insert "event_type" (shownEvent trigger)).insert "data"
        (.ofOption trigger.data) := by
  unfold eventValues shownEvent
  rw [asTable?_ofOption, ← Trigger.fields]
  cases trigger.event? with
  | some name => rfl
  | none =>
      cases hfield : trigger.fields.get? "event_type" with
      | none => simp [Table.contains, hfield, Value.ofOption]
      | some value =>
          have kept : trigger.fields.insert "event_type" value =
              trigger.fields := by
            refine Table.ext_get? fun name => ?_
            by_cases hname : name = "event_type" <;> simp [Table.get?_insert,
              hname, hfield]
          simp [Table.contains, hfield, Value.ofOption, kept]

theorem eventValues_shows (trigger : Trigger) :
    Shows trigger (shownEvent trigger)
      (eventValues (.ofOption trigger.data) trigger.event?) := by
  rw [eventValues_eq]
  constructor
  case event => simp [Table.get?_insert]
  case data => simp
  case fields =>
    intro name htype hdata
    simp [Table.get?_insert, htype, hdata]

def onEvent : Entry where
  kind := entryKind "event/OnEvent" "On Event" "event"
    "Fires when an event reaches the blueprint"
    [.execOut "exec", .dataOut "event_type" .text, .dataOut "data" .any]
  run := .ofOutput fun inv =>
    .proceed "exec" (eventValues (.ofOption inv.triggerData) inv.event)

theorem lookup_onEvent :
    Catalogue.standard.lookup "event/OnEvent" = some onEvent := rfl

end Library.Events

namespace Engine.Machine

open Library.Events

/-! ## Runs -/

section Runs

variable {setup : Setup} {root : Scope} {config : Config}

theorem Config.Placed.onEvent_steps (placed : config.Placed setup root)
    (hlookup : setup.catalogue.lookup "event/OnEvent" = some onEvent)
    {entry : Entry} {inv : Invocation}
    (invokes : config.invocation? setup = some (entry, inv))
    (hkind : inv.nodeKind = "event/OnEvent") :
    ∃ next, StepsTo setup config next ∧ next.state.outputs? inv.nodeId =
      some (eventValues
        (.ofOption setup.trigger.data) setup.trigger.event?) := by
  obtain ⟨⟨demand, node, how⟩, inputs, more, hgatherings, hhow, rfl⟩ :=
    invocation?_eq_some.mp invokes
  rw [Job.invocation_nodeKind] at hkind
  have fits := placed.jobs ⟨demand, node, how⟩ (by simp [hgatherings])
  cases hhow
  have hentry : entry = onEvent := by
    have found := runner?_entry fits.runs
    rw [hkind, hlookup] at found
    exact (Option.some.inj found).symm
  cases demand with
  | pull =>
      -- Entries for events are not evaluated on demand.
      have hpure := (evaluator?_entry (fits.pulled rfl)).2
      rw [hentry] at hpure
      cases hpure
  | visit =>
      subst hentry
      refine ⟨_, by simp only [StepsTo, step, hgatherings]; rfl, ?_⟩
      refine (congrArg
        (fun outputs : Table (Table Value) => outputs.get? node.id)
        (conclude_outputs _ _ _)).trans ?_
      exact Table.get?_insert_self _ _ _

end Runs

/-! ## Selection -/

section Selection

variable {catalogue : Catalogue} {blueprint : Blueprint} {trigger : Trigger}
  {node : Node}

theorem mem_entries_iff {kind : NodeKind} :
    (node, kind) ∈ entries catalogue blueprint ↔
      node ∈ blueprint.nodes ∧ catalogue.kind? node.kind = some kind ∧
      kind.isEntry = true := by
  unfold entries
  rw [List.mem_filterMap]
  constructor
  · rintro ⟨found, hfound, h⟩
    cases hkind : catalogue.kind? found.kind with
    | none => simp [hkind] at h
    | some other =>
        by_cases hentry : other.isEntry = true
        · simp only [hkind, hentry, if_true, Option.some.injEq,
            Prod.mk.injEq] at h
          obtain ⟨rfl, rfl⟩ := h
          exact ⟨hfound, hkind, hentry⟩
        · simp [hkind, hentry] at h
  · rintro ⟨hnode, hkind, hentry⟩
    exact ⟨node, hnode, by simp [hkind, hentry]⟩

theorem acceptsEvent_of_selected {kind : NodeKind}
    (hkind : catalogue.kind? node.kind = some kind)
    (responds : kind.respondsTo trigger.kind = true)
    (selected : node ∈ selectEntries catalogue blueprint trigger) :
    acceptsEvent trigger node = true := by
  have matching : ∀ {other}, (node, other) ∈ entries catalogue blueprint →
      node ∈ ((entries catalogue blueprint).filter fun entry =>
        entry.2.respondsTo trigger.kind).map Prod.fst := by
    intro other hother
    have hsame : other = kind :=
      Option.some.inj ((mem_entries_iff.mp hother).2.1.symm.trans hkind)
    rw [hsame] at hother
    exact List.mem_map.mpr
      ⟨(node, kind), List.mem_filter.mpr ⟨hother, responds⟩, rfl⟩
  simp only [selectEntries] at selected
  split at selected
  · next hnone =>
      obtain ⟨⟨_, other⟩, hother, rfl⟩ := List.mem_map.mp selected
      have present := matching hother
      rw [List.isEmpty_iff.mp hnone] at present
      cases present
  · exact (List.mem_filter.mp selected).2

theorem event?_of_selected
    (hlookup : catalogue.lookup "event/OnEvent" = some onEvent)
    (selected : node ∈ selectEntries catalogue blueprint trigger)
    (hkind : node.kind = "event/OnEvent") (htrigger : trigger.kind = "event")
    {wanted : String} (hwanted : node.configText? "event_type" = some wanted) :
    trigger.event? = some wanted := by
  have found : catalogue.kind? node.kind = some onEvent.kind := by
    rw [hkind, Catalogue.kind?, hlookup]
    rfl
  have responds : onEvent.kind.respondsTo trigger.kind = true := by
    rw [htrigger]
    decide
  simpa [acceptsEvent, hwanted] using acceptsEvent_of_selected found responds
    selected

end Selection

/-- What a node for events gives in a run.  Whenever it is run, in the graph of
the blueprint or in the body of a function, its values are the data of the
trigger, the fields of the data, and under `event_type` the name of the event or
else what the data have there.  So it reports the event faithfully, by its name
or by null, exactly if the event has a name or the data have nothing but null in
its place.  A node that is configured for an event and started by a trigger of
its kind reports that event. -/
theorem event_reported_iff (catalogue : Catalogue) (limits : Limits)
    (blueprint : Blueprint) (trigger : Trigger) (services : Services)
    (hlookup : catalogue.lookup "event/OnEvent" =
      Catalogue.standard.lookup "event/OnEvent") :
    let setup := setupOf catalogue limits blueprint trigger
    ∀ config, Reaches setup (start catalogue blueprint trigger services)
      config → ∀ entry inv, config.invocation? setup = some (entry, inv) →
      inv.nodeKind = "event/OnEvent" →
        ∃ next values, StepsTo setup config next ∧
          next.state.outputs? inv.nodeId = some values ∧
          Shows trigger (shownEvent trigger) values ∧
          (Shows trigger (namedEvent trigger) values ↔
            (trigger.event? = none →
              ∀ value, trigger.fields.get? "event_type" = some value →
              value = .null)) ∧
          ∀ node ∈ selectEntries catalogue blueprint trigger,
            node.id = inv.nodeId → node.kind = "event/OnEvent" →
            trigger.kind = "event" →
            ∀ wanted, node.configText? "event_type" = some wanted →
              Shows trigger (.text wanted) values := by
  intro setup config reached entry inv invokes hkind
  rw [lookup_onEvent] at hlookup
  have placed :=
    Reaches.placed reached
      (start_placed setup catalogue blueprint trigger services)
  obtain ⟨next, stepped, houtputs⟩ := placed.onEvent_steps hlookup invokes hkind
  have shows := eventValues_shows trigger
  refine ⟨next, _, stepped, houtputs, shows, ?_, ?_⟩
  · rw [← shownEvent_eq_namedEvent_iff]
    -- Outputs show a single text (`Shows.unique`).
    constructor
    · intro named
      exact shows.unique named
    · intro same
      rw [← same]
      exact shows
  · intro node selected _ hnode htrigger wanted hwanted
    have named := event?_of_selected hlookup selected hnode htrigger hwanted
    have same : shownEvent trigger = .text wanted := by rw [shownEvent, named]
    rw [← same]
    exact shows

/-! ### An event with a name, and data with a number in its place -/

namespace Alarm

def blueprint : Blueprint where
  id := "alarm"
  name := "Alarm"
  nodes := [⟨"alarm", "event/OnEvent", .origin,
    .object [("event_type", .text "alarm")]⟩,
    ⟨"any", "event/OnEvent", .origin, .null⟩]

def named : Trigger where
  kind := "event"
  data := some (.object [("event_type", .ofInt 5), ("zone", .ofInt 2)])
  explicitEvent := some "alarm"

def unnamed : Trigger where
  kind := "event"
  data := some (.object [("event_type", .ofInt 5)])

def setup : Setup := setupOf Catalogue.standard {} blueprint named

def reporting : Config :=
  runFor setup 2 (start Catalogue.standard blueprint named {})

theorem alarm_reported :
    ∃ next values, StepsTo setup reporting next ∧
      next.state.outputs? "alarm" = some values ∧
      Shows named (.text "alarm") values ∧
      Shows named (namedEvent named) values := by
  have shown : (reporting.invocation? setup).map
      (fun found => (found.2.nodeId, found.2.nodeKind)) =
        some ("alarm", "event/OnEvent") := by
    decide +kernel
  obtain ⟨⟨entry, inv⟩, invokes, hshown⟩ := Option.map_eq_some_iff.mp shown
  obtain ⟨hid, hkind⟩ := Prod.mk.inj hshown
  obtain ⟨next, values, stepped, houtputs, -, faithful, configured⟩ :=
    event_reported_iff Catalogue.standard {} blueprint named {} rfl reporting
      (reaches_runFor setup 2 _) entry inv invokes hkind
  rw [show inv.nodeId = "alarm" from hid] at houtputs configured
  refine ⟨next, values, stepped, houtputs, ?_, faithful.mpr fun h => ?_⟩
  · exact configured
      ⟨"alarm", "event/OnEvent", .origin,
        .object [("event_type", .text "alarm")]⟩
      (by decide +kernel) rfl rfl rfl "alarm" rfl
  · cases h

theorem number_reported :
    unnamed.event? = none ∧ ∃ values,
      (runBlueprint Catalogue.standard {} blueprint unnamed
        {}).1.outputs.get? "any" =
        some values ∧ values.get? "event_type" = some (.ofInt 5) ∧
        ¬Shows unnamed (namedEvent unnamed) values := by
  refine ⟨by decide, eventValues (.ofOption unnamed.data) unnamed.event?,
    by decide +kernel, by decide, fun faithful => ?_⟩
  have same := (eventValues_shows unnamed).unique faithful
  revert same
  decide

end Alarm

end Engine.Machine

end ScriptGraph
