import Mathlib.Data.List.Induction
import Mathlib.Data.Set.Card
import ScriptGraph.Catalogue

/-!
# The catalogue follows its history

A catalogue starts empty; built-in kinds are added to it, plugins bring kinds
and are unloaded.  What it answers is read off that history: an id stands for
the kind that a plugin brought last, unless this plugin has been unloaded since,
and else for the last built-in kind.

The layer of the plugins has one entry for each id.  A plugin that brings a kind
with an id takes the place of any other plugin that did so before, and the other
one's kind does not come back when it is unloaded.
-/

namespace ScriptGraph

/-! ## Counting -/

theorem encard_members {names : List String} (distinct : names.Nodup) :
    Set.encard {name | name ∈ names} = names.length := by
  have members : {name | name ∈ names} = (names.toFinset : Set String) := by
    ext name
    simp
  rw [members, Set.encard_coe_eq_coe_finsetCard,
    List.toFinset_card_of_nodup distinct]

namespace Table

variable {α : Type}

theorem encard_keys (table : Table α) :
    Set.encard {key | ∃ value, table.get? key = some value} = table.size := by
  have keys : {key | ∃ value, table.get? key = some value} =
      {key | key ∈ keysOf table.entries} := by
    ext key
    simp [get?_eq_some_iff]
  rw [keys, encard_members table.keys_nodup, List.length_map, size]

theorem mem_keys_insertAll {key : String} {entries : List (String × α)}
    {table : Table α} :
    key ∈ (table.insertAll entries).keys ↔
      key ∈ keysOf entries ∨ key ∈ table.keys := by
  induction entries generalizing table with
  | nil => simp [insertAll]
  | cons entry rest ih =>
      have first : key ∈ (table.insert entry.1 entry.2).keys ↔
          key = entry.1 ∨ key ∈ table.keys :=
        key_mem_insertEntry
      change key ∈ ((table.insert entry.1 entry.2).insertAll rest).keys ↔ _
      rw [ih, first, keysOf, keysOf, List.map_cons, List.mem_cons]
      tauto

theorem mem_keys_ofList {key : String} {entries : List (String × α)} :
    key ∈ (ofList entries).keys ↔ key ∈ keysOf entries := by
  rw [ofList, mem_keys_insertAll]
  simp [keys, empty]

theorem keys_ascend (table : Table α) : table.keys.Pairwise (· < ·) :=
  List.pairwise_map.mpr table.ascending

end Table

namespace Catalogue

/-! ## Histories -/

inductive Operation where
  | register (kind : NodeKind) (run : Executor)
  | registerPlugin (owner : String) (kind : NodeKind) (run : Executor)
  | unload (owner : String)

def apply (catalogue : Catalogue) : Operation → Catalogue
  | .register kind run => catalogue.register kind run
  | .registerPlugin owner kind run => catalogue.registerPlugin owner kind run
  | .unload owner => (catalogue.unload owner).2

def after (history : List Operation) : Catalogue :=
  history.foldl apply empty

theorem after_concat (history : List Operation) (operation : Operation) :
    after (history ++ [operation]) = (after history).apply operation := by
  simp [after]

namespace Operation

def builtin? (id : String) : Operation → Option Entry
  | .register kind run => if kind.id = id then some ⟨kind, run, none⟩ else none
  | _ => none

def brought? (id : String) : Operation → Option Entry
  | .registerPlugin owner kind run =>
    if kind.id = id then some ⟨kind, run, some owner⟩ else none
  | _ => none

def unloads (owner : Option String) : Operation → Bool
  | .unload name => owner == some name
  | _ => false

theorem builtin?_eq_some {id : String} {operation : Operation} {entry : Entry}
    (h : operation.builtin? id = some entry) :
    operation = .register entry.kind entry.run ∧ entry.kind.id = id ∧
      entry.owner = none := by
  cases operation with
  | register kind run =>
      simp only [builtin?] at h
      split at h
      · next hid =>
          cases h
          exact ⟨rfl, hid, rfl⟩
      · cases h
  | registerPlugin owner kind run => cases h
  | unload owner => cases h

theorem brought?_eq_some {id : String} {operation : Operation} {entry : Entry}
    (h : operation.brought? id = some entry) :
    ∃ owner, operation = .registerPlugin owner entry.kind entry.run ∧
      entry.kind.id = id ∧ entry.owner = some owner := by
  cases operation with
  | register kind run => cases h
  | registerPlugin owner kind run =>
      simp only [brought?] at h
      split at h
      · next hid =>
          cases h
          exact ⟨owner, rfl, hid, rfl⟩
      · cases h
  | unload owner => cases h

theorem unloads_iff {owner : String} {operation : Operation} :
    operation.unloads (some owner) = true ↔ operation = .unload owner := by
  cases operation with
  | register kind run => simp [unloads]
  | registerPlugin name kind run => simp [unloads]
  | unload name =>
      simp only [unloads, beq_iff_eq, Option.some.injEq, unload.injEq]
      exact eq_comm

end Operation

def lastBuiltin? (id : String) (history : List Operation) : Option Entry :=
  (history.filterMap (Operation.builtin? id)).getLast?

def lastBrought? (id : String) :
    List Operation → Option (Entry × List Operation)
  | [] => none
  | operation :: later =>
    (lastBrought? id later).or
      ((operation.brought? id).map fun entry => (entry, later))

/-- The last kind with this id that a plugin has brought, unless the plugin has
been unloaded since. -/
def stillBrought? (id : String) (history : List Operation) : Option Entry :=
  ((lastBrought? id history).filter fun (entry, since) =>
    !since.any (Operation.unloads entry.owner)).map Prod.fst

def inForce? (id : String) (history : List Operation) : Option Entry :=
  (stillBrought? id history).or (lastBuiltin? id history)

theorem lastBuiltin?_concat (id : String) (history : List Operation)
    (operation : Operation) :
    lastBuiltin? id (history ++ [operation]) =
      (operation.builtin? id).or (lastBuiltin? id history) := by
  simp only [lastBuiltin?, List.filterMap_append, List.getLast?_append]
  congr 1
  cases h : operation.builtin? id <;> simp [h]

theorem lastBrought?_concat (id : String) (history : List Operation)
    (operation : Operation) :
    lastBrought? id (history ++ [operation]) =
      ((operation.brought? id).map fun entry => (entry, [])).or
        ((lastBrought? id history).map fun found =>
          (found.1, found.2 ++ [operation])) := by
  induction history with
  | nil => simp [lastBrought?]
  | cons first rest ih =>
      rw [List.cons_append, lastBrought?, ih, lastBrought?]
      cases operation.brought? id with
      | some entry => rfl
      | none =>
          cases lastBrought? id rest with
          | some found => rfl
          | none => cases first.brought? id <;> rfl

theorem stillBrought?_concat (id : String) (history : List Operation)
    (operation : Operation) :
    stillBrought? id (history ++ [operation]) =
      (operation.brought? id).or
        ((stillBrought? id history).filter fun entry =>
          !operation.unloads entry.owner) := by
  rw [stillBrought?, lastBrought?_concat]
  cases operation.brought? id with
  | some entry => rfl
  | none =>
      rw [stillBrought?]
      cases lastBrought? id history with
      | none => rfl
      | some found =>
          obtain ⟨entry, since⟩ := found
          simp only [Option.map_none, Option.none_or, Option.map_some,
            Option.filter_some, List.any_append, List.any_cons, List.any_nil,
            Bool.or_false, Bool.not_or]
          cases since.any (Operation.unloads entry.owner) <;>
            cases hnow : operation.unloads entry.owner <;>
              simp [Option.filter_some, hnow]

/-! ## One operation -/

theorem apply_builtin (catalogue : Catalogue) (operation : Operation)
    (id : String) :
    (catalogue.apply operation).builtin.get? id =
      (operation.builtin? id).or (catalogue.builtin.get? id) := by
  cases operation with
  | register kind run =>
      simp only [apply, register, Table.get?_insert, Operation.builtin?]
      by_cases hid : kind.id = id
      · simp [hid]
      · simp [hid, Ne.symm hid]
  | registerPlugin owner kind run => rfl
  | unload owner => rfl

theorem apply_plugin (catalogue : Catalogue) (operation : Operation)
    (id : String) :
    (catalogue.apply operation).plugin.get? id =
      (operation.brought? id).or
        ((catalogue.plugin.get? id).filter fun entry =>
          !operation.unloads entry.owner) := by
  cases operation with
  | register kind run =>
      change catalogue.plugin.get? id =
        (catalogue.plugin.get? id).filter fun _ => true
      cases catalogue.plugin.get? id <;> rfl
  | registerPlugin owner kind run =>
      simp only [apply, registerPlugin, Table.get?_insert, Operation.brought?,
        Operation.unloads]
      by_cases hid : kind.id = id
      · simp [hid]
      · simp only [hid, Ne.symm hid, if_false, Option.none_or]
        cases catalogue.plugin.get? id <;> rfl
  | unload owner =>
      simp only [apply, unload, Table.get?_filter, Operation.brought?,
        Option.none_or]
      rfl

structure Layered (catalogue : Catalogue) : Prop where
  builtin : ∀ id entry, catalogue.builtin.get? id = some entry →
    entry.kind.id = id ∧ entry.owner = none
  plugin : ∀ id entry, catalogue.plugin.get? id = some entry →
    entry.kind.id = id ∧ entry.owner ≠ none

theorem Layered.apply {catalogue : Catalogue} (layered : catalogue.Layered)
    (operation : Operation) : (catalogue.apply operation).Layered := by
  constructor
  · intro id entry h
    rw [apply_builtin, Option.or_eq_some_iff] at h
    rcases h with hnew | ⟨-, hold⟩
    · exact (Operation.builtin?_eq_some hnew).2
    · exact layered.builtin id entry hold
  · intro id entry h
    rw [apply_plugin, Option.or_eq_some_iff] at h
    rcases h with hnew | ⟨-, hold⟩
    · obtain ⟨owner, -, hid, howner⟩ := Operation.brought?_eq_some hnew
      exact ⟨hid, by simp [howner]⟩
    · exact layered.plugin id entry (Option.filter_eq_some_iff.mp hold).1

theorem empty_layered : empty.Layered :=
  ⟨nofun, nofun⟩

/-! ## Whole histories -/

theorem after_layered (history : List Operation) : (after history).Layered := by
  induction history using List.reverseRecOn with
  | nil => exact empty_layered
  | append_singleton history operation ih =>
      rw [after_concat]
      exact ih.apply operation

theorem after_builtin (history : List Operation) (id : String) :
    (after history).builtin.get? id = lastBuiltin? id history := by
  induction history using List.reverseRecOn with
  | nil => rfl
  | append_singleton history operation ih =>
      rw [after_concat, apply_builtin, ih, lastBuiltin?_concat]

theorem after_plugin (history : List Operation) (id : String) :
    (after history).plugin.get? id = stillBrought? id history := by
  induction history using List.reverseRecOn with
  | nil => rfl
  | append_singleton history operation ih =>
      rw [after_concat, apply_plugin, ih, stillBrought?_concat]

theorem lookup_eq_or (catalogue : Catalogue) (id : String) :
    catalogue.lookup id =
      (catalogue.plugin.get? id).or (catalogue.builtin.get? id) := by
  unfold lookup
  cases catalogue.plugin.get? id <;> rfl

theorem lookup_after (history : List Operation) (id : String) :
    (after history).lookup id = inForce? id history := by
  rw [lookup_eq_or, after_plugin, after_builtin, inForce?]

/-! ## The kinds of a catalogue -/

section Kinds

variable {catalogue : Catalogue} {id : String}

theorem filter_values {table : Table Entry}
    (keyed : ∀ id entry, table.get? id = some entry → entry.kind.id = id)
    (id : String) :
    (table.values.map Entry.kind).filter (fun kind => kind.id == id) =
      ((table.get? id).map Entry.kind).toList := by
  have byKey : table.entries.filter (fun entry => entry.2.kind.id == id) =
      table.entries.filter (fun entry => entry.1 == id) := by
    apply List.filter_congr
    intro entry present
    rw [keyed entry.1 entry.2 (Table.get?_eq_some_iff.mpr present)]
  have only := Table.filter_key_eq_findEntry table.ascending id
  rw [Table.values, List.map_map, List.filter_map]
  change (table.entries.filter fun entry => entry.2.kind.id == id).map _ = _
  rw [byKey, only]
  change _ = ((Table.findEntry id table.entries).map Entry.kind).toList
  cases Table.findEntry id table.entries <;> rfl

theorem Layered.filter_kinds (layered : catalogue.Layered) (id : String) :
    catalogue.kinds.filter (fun kind => kind.id == id) =
      (catalogue.kind? id).toList := by
  have shown : ∀ id entry,
      (catalogue.builtin.filter fun _ entry =>
        !catalogue.plugin.contains entry.kind.id).get? id =
        some entry → entry.kind.id = id := by
    intro id entry h
    rw [Table.get?_filter, Option.filter_eq_some_iff] at h
    exact (layered.builtin id entry h.1).1
  rw [kinds, List.filter_append,
    filter_values fun id entry h => (layered.plugin id entry h).1,
    filter_values shown, Table.get?_filter, kind?, lookup_eq_or]
  cases hplugin : catalogue.plugin.get? id with
  | none =>
      cases hbuiltin : catalogue.builtin.get? id with
      | none => rfl
      | some entry =>
          have hid := (layered.builtin id entry hbuiltin).1
          simp [Table.contains, hid, hplugin]
  | some found =>
      cases hbuiltin : catalogue.builtin.get? id with
      | none => rfl
      | some entry =>
          have hid := (layered.builtin id entry hbuiltin).1
          simp [Table.contains, hid, hplugin]

theorem Layered.mem_kinds_iff (layered : catalogue.Layered) {kind : NodeKind} :
    kind ∈ catalogue.kinds ↔ catalogue.kind? kind.id = some kind := by
  have members :
      kind ∈ catalogue.kinds.filter (fun other => other.id == kind.id) ↔
      kind ∈ (catalogue.kind? kind.id).toList := by
    rw [layered.filter_kinds]
  simpa using members

theorem Layered.kind?_id (layered : catalogue.Layered) {kind : NodeKind}
    (h : catalogue.kind? id = some kind) : kind.id = id := by
  have member : kind ∈ catalogue.kinds.filter (fun kind => kind.id == id) := by
    simp [layered.filter_kinds, h]
  simpa using (List.mem_filter.mp member).2

theorem Layered.ids_nodup (layered : catalogue.Layered) :
    (catalogue.kinds.map NodeKind.id).Nodup := by
  rw [List.nodup_iff_count_le_one]
  intro id
  rw [List.count, List.countP_map, List.countP_eq_length_filter]
  change (catalogue.kinds.filter fun kind => kind.id == id).length ≤ 1
  rw [layered.filter_kinds]
  cases catalogue.kind? id <;> simp

theorem contains_iff {catalogue : Catalogue} {id : String} :
    catalogue.contains id = true ↔ ∃ kind, catalogue.kind? id = some kind := by
  rw [← Option.isSome_iff_exists, kind?, Option.isSome_map, contains]

theorem Layered.encard_contains (layered : catalogue.Layered) :
    Set.encard {id | catalogue.contains id = true} = catalogue.size := by
  have ids : {id | catalogue.contains id = true} =
      {id | id ∈ catalogue.kinds.map NodeKind.id} := by
    ext id
    simp only [Set.mem_ofPred_eq, contains_iff, List.mem_map]
    constructor
    · rintro ⟨kind, h⟩
      have hid := layered.kind?_id h
      exact ⟨kind, layered.mem_kinds_iff.mpr (hid ▸ h), hid⟩
    · rintro ⟨kind, member, rfl⟩
      exact ⟨kind, layered.mem_kinds_iff.mp member⟩
  rw [ids, encard_members layered.ids_nodup, List.length_map, size]

theorem Layered.isEmpty_iff (layered : catalogue.Layered) :
    catalogue.isEmpty = true ↔ catalogue.size = 0 := by
  have nothing : catalogue.size = 0 ↔ ∀ id, catalogue.kind? id = none := by
    rw [size, List.length_eq_zero_iff, List.eq_nil_iff_forall_not_mem]
    constructor
    · intro none id
      by_contra some
      obtain ⟨kind, h⟩ := Option.ne_none_iff_exists'.mp some
      exact none kind (layered.mem_kinds_iff.mpr (layered.kind?_id h ▸ h))
    · intro none kind member
      have h := layered.mem_kinds_iff.mp member
      rw [none] at h
      cases h
  rw [nothing, isEmpty, Bool.and_eq_true, Table.isEmpty_iff, Table.isEmpty_iff,
    ← forall_and]
  simp only [kind?, Option.map_eq_none_iff, lookup_eq_or, Option.or_eq_none_iff,
    and_comm]

theorem Layered.mem_categories (layered : catalogue.Layered)
    (category : String) :
    category ∈ catalogue.categories ↔
      ∃ id kind, catalogue.kind? id = some kind ∧ kind.category = category := by
  rw [categories, Table.mem_keys_ofList]
  simp only [keysOf, List.map_map, List.mem_map, Function.comp_apply]
  constructor
  · rintro ⟨kind, member, hcategory⟩
    exact ⟨kind.id, kind, layered.mem_kinds_iff.mp member, hcategory⟩
  · rintro ⟨id, kind, h, hcategory⟩
    exact ⟨kind, layered.mem_kinds_iff.mpr (layered.kind?_id h ▸ h), hcategory⟩

end Kinds

/-! ## Unloading -/

section Unloading

variable {catalogue : Catalogue} {owner : String}

theorem encard_unload (catalogue : Catalogue) (owner : String) :
    Set.encard {id | ∃ entry, catalogue.plugin.get? id = some entry ∧
      entry.owner = some owner} =
      (catalogue.unload owner).1 := by
  have owned :
      {id | ∃ entry, catalogue.plugin.get? id = some entry ∧
        entry.owner = some owner} =
      {id | ∃ entry,
        (catalogue.plugin.filter fun _ entry => entry.owner == some owner).get?
          id =
        some entry} := by
    ext id
    simp [Table.get?_filter, Option.filter_eq_some_iff]
  have parts := List.length_eq_length_filter_add
    (fun entry : String × Entry => entry.2.owner == some owner)
      (l := catalogue.plugin.entries)
  rw [owned, Table.encard_keys]
  simp only [unload, Table.size, Table.filter, bne]
  congr 1
  omega

theorem lookup_unload (catalogue : Catalogue) (owner id : String) :
    (catalogue.unload owner).2.lookup id =
      ((catalogue.plugin.get? id).filter fun entry =>
        entry.owner != some owner).or
        (catalogue.builtin.get? id) := by
  rw [lookup_eq_or]
  simp only [unload, Table.get?_filter]

theorem Layered.owner_of_lookup_unload (layered : catalogue.Layered)
    {id : String} {entry : Entry}
    (h : (catalogue.unload owner).2.lookup id = some entry) :
    entry.owner ≠ some owner := by
  rw [lookup_unload, Option.or_eq_some_iff] at h
  rcases h with hplugin | ⟨-, hbuiltin⟩
  · simpa using (Option.filter_eq_some_iff.mp hplugin).2
  · simp [(layered.builtin id entry hbuiltin).2]

theorem lookup_unload_of_ne {id : String}
    (h : ∀ entry, catalogue.lookup id = some entry → entry.owner ≠ some owner) :
    (catalogue.unload owner).2.lookup id = catalogue.lookup id := by
  rw [lookup_unload, lookup_eq_or]
  cases hplugin : catalogue.plugin.get? id with
  | none => rfl
  | some entry =>
      have other := h entry (by simp [lookup_eq_or, hplugin])
      simp [other]

end Unloading

/-- How a catalogue answers when this has been done to it. -/
structure Follows (catalogue : Catalogue) (history : List Operation) :
    Prop where
  lookup : ∀ id, catalogue.lookup id = inForce? id history
  kinds : ∀ id, catalogue.kinds.filter (fun kind => kind.id == id) =
    (catalogue.kind? id).toList
  size : Set.encard {id | catalogue.contains id = true} = catalogue.size
  isEmpty : catalogue.isEmpty = true ↔ catalogue.size = 0
  categories : catalogue.categories.Pairwise (· < ·) ∧ ∀ category,
    category ∈ catalogue.categories ↔
      ∃ id kind, catalogue.kind? id = some kind ∧ kind.category = category
  /-- As many as the ids whose entry of a plugin is the owner's. -/
  removed : ∀ owner,
    Set.encard {id | ∃ entry, catalogue.plugin.get? id = some entry ∧
      entry.owner = some owner} =
      (catalogue.unload owner).1
  unloaded : ∀ owner id entry,
    (catalogue.unload owner).2.lookup id = some entry → entry.owner ≠ some owner
  untouched : ∀ owner id,
    (∀ entry, catalogue.lookup id = some entry → entry.owner ≠ some owner) →
      (catalogue.unload owner).2.lookup id = catalogue.lookup id

theorem follows_history (history : List Operation) :
    (after history).Follows history := by
  have layered := after_layered history
  exact {
    lookup := lookup_after history
    kinds := layered.filter_kinds
    size := layered.encard_contains
    isEmpty := layered.isEmpty_iff
    categories := ⟨Table.keys_ascend _, layered.mem_categories⟩
    removed := encard_unload _
    unloaded := fun _ _ _ h => layered.owner_of_lookup_unload h
    untouched := fun _ _ h => lookup_unload_of_ne h }

/-! ## Plugins that bring the same kind -/

def Provides (history : List Operation) (owner id : String) : Prop :=
  ∃ earlier kind run later,
    history = earlier ++ .registerPlugin owner kind run :: later ∧
    kind.id = id ∧ .unload owner ∉ later

/-- The plugin was the last that brought a kind with this id, and it has been
unloaded since. -/
def Withdraws (history : List Operation) (owner id : String) : Prop :=
  ∃ earlier kind run later,
    history = earlier ++ .registerPlugin owner kind run :: later ∧
    kind.id = id ∧ (∀ operation ∈ later, operation.brought? id = none) ∧
    .unload owner ∈ later

section Shared

variable {history : List Operation} {id : String}

theorem lastBrought?_eq_none_iff :
    lastBrought? id history = none ↔
      ∀ operation ∈ history, operation.brought? id = none := by
  induction history with
  | nil => simp [lastBrought?]
  | cons first rest ih => simp [lastBrought?, ih, and_comm]

theorem lastBrought?_eq_some_iff {entry : Entry} {since : List Operation} :
    lastBrought? id history = some (entry, since) ↔
      ∃ earlier operation, history = earlier ++ operation :: since ∧
        operation.brought? id = some entry ∧
        ∀ other ∈ since, other.brought? id = none := by
  induction history with
  | nil => simp [lastBrought?]
  | cons first rest ih =>
      rw [lastBrought?, Option.or_eq_some_iff, lastBrought?_eq_none_iff]
      constructor
      · rintro (hlater | ⟨hnone, hfirst⟩)
        · obtain ⟨earlier, operation, rfl, hbrought, hsince⟩ := ih.mp hlater
          exact ⟨first :: earlier, operation, rfl, hbrought, hsince⟩
        · obtain ⟨_, hbrought, heq⟩ := Option.map_eq_some_iff.mp hfirst
          cases heq
          exact ⟨[], first, rfl, hbrought, hnone⟩
      · rintro ⟨earlier, operation, hhistory, hbrought, hsince⟩
        cases earlier with
        | nil =>
            cases hhistory
            exact .inr ⟨hsince, by simp [hbrought]⟩
        | cons head earlier =>
            cases hhistory
            exact .inl (ih.mpr ⟨earlier, operation, rfl, hbrought, hsince⟩)

theorem brought?_registerPlugin {owner : String} {kind : NodeKind}
    {run : Executor} (hid : kind.id = id) :
    (Operation.registerPlugin owner kind run).brought? id =
      some ⟨kind, run, some owner⟩ := by
  simp [Operation.brought?, hid]

theorem withdraws_iff {owner : String} :
    Withdraws history owner id ↔
      ∃ entry since, lastBrought? id history = some (entry, since) ∧
      entry.owner = some owner ∧ .unload owner ∈ since := by
  constructor
  · rintro ⟨earlier, kind, run, later, hhistory, hid, hlater, hunload⟩
    refine ⟨⟨kind, run, some owner⟩, later, ?_, rfl, hunload⟩
    exact lastBrought?_eq_some_iff.mpr
      ⟨earlier, _, hhistory, brought?_registerPlugin hid, hlater⟩
  · rintro ⟨entry, since, hlast, howner, hunload⟩
    obtain ⟨earlier, operation, hhistory, hbrought, hsince⟩ :=
      lastBrought?_eq_some_iff.mp hlast
    obtain ⟨name, rfl, hid, hname⟩ := Operation.brought?_eq_some hbrought
    cases howner.symm.trans hname
    exact ⟨earlier, entry.kind, entry.run, since, hhistory, hid, hsince,
      hunload⟩

theorem stillBrought?_eq_none_iff :
    stillBrought? id history = none ↔
      lastBrought? id history = none ∨ ∃ owner, Withdraws history owner id := by
  simp only [withdraws_iff]
  rw [stillBrought?, Option.map_eq_none_iff]
  cases hlast : lastBrought? id history with
  | none => simp
  | some found =>
      obtain ⟨entry, since⟩ := found
      obtain ⟨earlier, operation, -, hbrought, -⟩ :=
        lastBrought?_eq_some_iff.mp hlast
      obtain ⟨owner, -, -, howner⟩ := Operation.brought?_eq_some hbrought
      simp [Option.filter_some, howner, Operation.unloads_iff]

theorem lastBuiltin?_eq_none_iff :
    lastBuiltin? id history = none ↔
      ∀ kind run, .register kind run ∈ history → kind.id ≠ id := by
  simp only [lastBuiltin?, List.getLast?_eq_none_iff, List.filterMap_eq_nil_iff]
  constructor
  · intro hnone kind run member hid
    simpa [Operation.builtin?, hid] using hnone _ member
  · intro hother operation member
    by_contra hsome
    obtain ⟨entry, hentry⟩ := Option.ne_none_iff_exists'.mp hsome
    obtain ⟨rfl, hid, -⟩ := Operation.builtin?_eq_some hentry
    exact hother _ _ member hid

theorem Provides.ne_of_withdraws {owner other : String}
    (provides : Provides history owner id)
    (withdraws : Withdraws history other id) : other ≠ owner := by
  rintro rfl
  obtain ⟨earlier, kind, run, later, rfl, hid, loaded⟩ := provides
  obtain ⟨before, newer, newRun, since, hhistory, -, hsince, unloaded⟩ :=
    withdraws
  have notSince : .registerPlugin other kind run ∉ since := by
    intro member
    have hnone := hsince _ member
    rw [brought?_registerPlugin hid] at hnone
    cases hnone
  have sinceSuffix :
      since <:+ earlier ++ .registerPlugin other kind run :: later := by
    rw [hhistory]
    exact ⟨before ++ [.registerPlugin other newer newRun], by simp⟩
  -- The last registration is not before the one that still counts.
  rcases List.suffix_or_suffix_of_suffix sinceSuffix
    (List.suffix_append _ _) with hinner | houter
  · rcases List.suffix_cons_iff.mp hinner with rfl | hlater
    · exact notSince List.mem_cons_self
    · exact loaded (hlater.subset unloaded)
  · exact notSince (houter.subset List.mem_cons_self)

end Shared

/-- An id for which a loaded plugin has brought a kind stands for nothing
exactly if another plugin brought one later and was unloaded, and no kind with
this id is built in. -/
theorem provided_kind_missing_iff (history : List Operation) (owner id : String)
    (provides : Provides history owner id) :
    (after history).contains id = false ↔
      (∃ other, other ≠ owner ∧ Withdraws history other id) ∧
        ∀ kind run, .register kind run ∈ history → kind.id ≠ id := by
  -- Some plugin was the last to bring the id, perhaps another one.
  have brought : lastBrought? id history ≠ none := by
    rw [ne_eq, lastBrought?_eq_none_iff]
    intro hnone
    obtain ⟨earlier, kind, run, later, rfl, hid, -⟩ := provides
    have hbrought := hnone (.registerPlugin owner kind run) (by simp)
    rw [brought?_registerPlugin hid] at hbrought
    cases hbrought
  rw [contains, lookup_after, inForce?, Option.isSome_eq_false_iff,
    Option.isNone_iff_eq_none, Option.or_eq_none_iff, stillBrought?_eq_none_iff,
    lastBuiltin?_eq_none_iff]
  refine and_congr_left fun _ => ?_
  constructor
  · rintro (hnone | ⟨other, withdraws⟩)
    · exact absurd hnone brought
    · exact ⟨other, provides.ne_of_withdraws withdraws, withdraws⟩
  · rintro ⟨other, -, withdraws⟩
    exact .inr ⟨other, withdraws⟩

def overlapping : List Operation :=
  let kind : NodeKind :=
    { id := "shared/Node", name := "Node", category := "Shared" }
  let run : Executor := .ofOutput fun _ => ⟨.empty, .finish⟩
  [.registerPlugin "first" kind run, .registerPlugin "second" kind run,
    .unload "second"]

theorem overlapping_provides : Provides overlapping "first" "shared/Node" :=
  ⟨[], _, _, _, rfl, rfl, by simp⟩

theorem overlapping_kind_lost :
    Provides overlapping "first" "shared/Node" ∧
      (after overlapping).contains "shared/Node" = false :=
  ⟨overlapping_provides, by decide +kernel⟩

theorem overlapping_withdraws :
    Provides overlapping "first" "shared/Node" ∧
      ∃ other, other ≠ "first" ∧ Withdraws overlapping other "shared/Node" := by
  have lost : (after overlapping).contains "shared/Node" = false := by
    decide +kernel
  have missing :=
    provided_kind_missing_iff overlapping "first" "shared/Node"
      overlapping_provides
  exact ⟨overlapping_provides, (missing.mp lost).1⟩

end Catalogue

end ScriptGraph
