import ScriptGraph.Blueprint
import ScriptGraph.Limits
import ScriptGraph.NodeKind
import ScriptGraph.Output
import ScriptGraph.Report
import ScriptGraph.Trigger

/-!
# JSON forms are read back

What is written in a JSON form and read again is what it was.  A record leaves
out the fields that hold nothing, and reads null where a value may be missing as
nothing.  So the one thing that does not come back is a null that somebody has
put where a value may be missing; a value that has been read never holds one.

The first part is about the fields of records, the second goes through the data
model from the inside out.
-/

namespace ScriptGraph

open Json

/-! ## Tables and their entries -/

namespace Table

variable {α : Type}

theorem mem_of_mem_insertEntry {key : String} {value : α} {entry : String × α}
    {entries : List (String × α)} (h : entry ∈ insertEntry key value entries) :
    entry = (key, value) ∨ entry ∈ entries := by
  induction entries with
  | nil => simpa [insertEntry] using h
  | cons first rest ih =>
      obtain ⟨name, found⟩ := first
      unfold insertEntry at h
      split at h
      · simpa using h
      · split at h
        · rcases List.mem_cons.mp h with hnew | hold
          · exact .inl hnew
          · exact .inr (List.mem_cons_of_mem _ hold)
        · rcases List.mem_cons.mp h with hfirst | hrest
          · exact .inr (hfirst ▸ List.mem_cons_self)
          · exact (ih hrest).imp_right (List.mem_cons_of_mem _)

theorem forall_mem_insertAll {entries : List (String × α)}
    {p : String × α → Prop} (table : Table α) (h : ∀ entry ∈ entries, p entry)
    (htable : ∀ entry ∈ table.entries, p entry) :
    ∀ entry ∈ (table.insertAll entries).entries, p entry := by
  induction entries generalizing table with
  | nil => exact htable
  | cons entry rest ih =>
      obtain ⟨hentry, hrest⟩ := List.forall_mem_cons.mp h
      refine ih _ hrest fun other hother => ?_
      rcases mem_of_mem_insertEntry hother with rfl | hold
      · exact hentry
      · exact htable other hold

theorem forall_mem_ofList {entries : List (String × α)} {p : String × α → Prop}
    (h : ∀ entry ∈ entries, p entry) :
    ∀ entry ∈ (ofList entries).entries, p entry :=
  forall_mem_insertAll empty h (List.forall_mem_nil _)

end Table

namespace Json

/-! ## Fields of records -/

namespace Value

@[simp] theorem get?_record_nil (key : String) :
    (record []).get? key = none := rfl

@[simp] theorem get?_record_cons (name key : String) (field : Option Value)
    (rest : List (String × Option Value)) :
    (record ((name, field) :: rest)).get? key =
      if key = name then field.or ((record rest).get? key)
      else (record rest).get? key := by
  cases field with
  | none => simp [record, get?]
  | some value => by_cases hkey : key = name <;> simp [record, get?,
    Table.findEntry, hkey]

@[simp] theorem fields?_record (names : List String)
    (fields : List (String × Option Value)) :
    (record fields).fields? names = some (names.map (record fields).get?) := rfl

end Value

namespace Decoder

variable {α : Type} {decode : Decoder α} {encode : α → Value}

@[simp] theorem text_text (s : String) : text (.text s) = some s := rfl

@[simp] theorem bool_bool (b : Bool) : bool (.bool b) = some b := rfl

@[simp] theorem any_eq (v : Value) : any v = some v := rfl

@[simp] theorem required_some (v : Value) :
    required decode (some v) = decode v := rfl

-- Not by `rfl`: the check of a rewriting with it would then compute with the
-- default limits.
@[simp] theorem orElse_some (default : α) (v : Value) :
    orElse decode default (some v) = decode v := by
  simp only [orElse]

@[simp] theorem orElse_none (default : α) :
    orElse decode default none = some default := rfl

@[simp] theorem optional_text (s? : Option String) :
    optional text (s?.map .text) = some s? := by
  cases s? <;> rfl

theorem optional_any {v? : Option Value} (h : v? ≠ some .null) :
    optional any v? = some v? := by
  cases v? with
  | none => rfl
  | some v => cases v <;> first | rfl | exact absurd rfl h

@[simp] theorem natural_ofNat (n : UInt64) :
    natural (.ofNat n.toNat) = some n := by
  have bounded : 0 ≤ (n.toNat : Int) ∧ (n.toNat : Int) < UInt64.size :=
    ⟨Int.natCast_nonneg _, Int.ofNat_lt.mpr n.toNat_lt⟩
  simp only [natural, Value.ofNat, Number.toUInt64?, if_pos bounded]
  simp

theorem mapM_map {β γ : Type} {write : γ → β} {read : β → Option γ}
    {p : γ → Bool} {items : List γ}
    (h : ∀ item ∈ items, read (write item) = if p item then
      some item else none) :
    (items.map write).mapM read = if items.all p then some items else none := by
  induction items with
  | nil => rfl
  | cons item items ih =>
      obtain ⟨hitem, hitems⟩ := List.forall_mem_cons.mp h
      rw [List.map_cons, List.mapM_cons, hitem, ih hitems, List.all_cons]
      cases p item <;> cases items.all p <;> rfl

theorem list_ofListWith_if {items : List α} {p : α → Bool}
    (h : ∀ item ∈ items, decode (encode item) = if p item then
      some item else none) :
    list decode (.ofListWith encode items) = if items.all p then
      some items else none :=
  mapM_map h

theorem list_ofListWith {items : List α}
    (h : ∀ item ∈ items, decode (encode item) = some item) :
    list decode (.ofListWith encode items) = some items := by
  simpa using list_ofListWith_if (p := fun _ => true) h

theorem table_ofTableWith_if {entries : Table α} {p : α → Bool}
    (h : ∀ entry ∈ entries.entries,
      decode (encode entry.2) = if p entry.2 then some entry.2 else none) :
    table decode (.ofTableWith encode entries) =
      if entries.entries.all fun entry => p entry.2 then some entries
      else none := by
  have read : members decode (entries.map encode).entries =
      if entries.entries.all fun entry => p entry.2 then
        some entries.entries else none := by
    refine mapM_map fun entry hentry => ?_
    rw [h entry hentry]
    cases p entry.2 <;> rfl
  simp only [table, Value.ofTableWith, Value.ofTable, read]
  split <;> simp

theorem table_ofTableWith {entries : Table α}
    (h : ∀ entry ∈ entries.entries, decode (encode entry.2) = some entry.2) :
    table decode (.ofTableWith encode entries) = some entries := by
  simpa using table_ofTableWith_if (p := fun _ => true) h

@[simp] theorem table_ofTable (entries : Table Value) :
    table any (.ofTable entries) = some entries := by
  have same : entries.map id = entries := by simp [Table.map]
  have read := @table_ofTableWith Value any id entries fun entry _ =>
    any_eq entry.2
  rwa [Value.ofTableWith, same] at read

/-! What a decoder yields has the properties that its parts yield. -/

def Yields (decode : Decoder α) (p : α → Prop) : Prop :=
  ∀ v x, decode v = some x → p x

theorem Yields.required {p : α → Prop} (yields : decode.Yields p)
    {field : Option Value} {x : α} (h : required decode field = some x) :
    p x := by
  cases field with
  | none => cases h
  | some v => exact yields v x h

theorem Yields.orElse {p : α → Prop} (yields : decode.Yields p) {default : α}
    (hdefault : p default) {field : Option Value} {x : α}
    (h : orElse decode default field = some x) : p x := by
  cases field with
  | none =>
      cases h
      exact hdefault
  | some v => exact yields v x h

theorem forall_mem_of_mapM {β : Type} {read : β → Option α} {sources : List β}
    {items : List α} {p : α → Prop} (h : sources.mapM read = some items)
    (each : ∀ source item, read source = some item → p item) :
    ∀ item ∈ items, p item := by
  induction sources generalizing items with
  | nil =>
      cases h
      exact List.forall_mem_nil _
  | cons source sources ih =>
      simp only [List.mapM_cons, Option.bind_eq_bind, Option.bind_eq_some_iff,
        Option.pure_def, Option.some.injEq] at h
      obtain ⟨item, hitem, rest, hrest, rfl⟩ := h
      exact List.forall_mem_cons.mpr ⟨each source item hitem, ih hrest⟩

theorem Yields.list {p : α → Prop} (yields : decode.Yields p) :
    (list decode).Yields fun items => ∀ item ∈ items, p item := by
  intro v items h
  cases v with
  | array sources => exact forall_mem_of_mapM h yields
  | _ => cases h

theorem Yields.table {p : α → Prop} (yields : decode.Yields p) :
    (table decode).Yields fun items => ∀ entry ∈ items.entries, p entry.2 := by
  intro v items h
  cases v with
  | object sources =>
      obtain ⟨list, hlist, rfl⟩ := Option.map_eq_some_iff.mp h
      refine Table.forall_mem_ofList
        (forall_mem_of_mapM hlist fun source item hitem => ?_)
      obtain ⟨value, hvalue, rfl⟩ := Option.map_eq_some_iff.mp hitem
      exact yields _ _ hvalue
  | _ => cases h

theorem ne_null_of_optional {field v? : Option Value}
    (h : optional any field = some v?) :
    v? ≠ some .null := by
  rintro rfl
  cases field with
  | none => cases h
  | some v => cases v <;> cases h

end Decoder

/-- A form that is read back: from what is proper, and from whatever has been
read before. -/
structure ReadsBack {α : Type} (encode : α → Value) (decode : Decoder α)
    (proper : α → Prop) :
    Prop where
  built : ∀ x, proper x → decode (encode x) = some x
  loaded : ∀ v x, decode v = some x → decode (encode x) = some x

theorem ReadsBack.of_yields {α : Type} {encode : α → Value} {decode : Decoder α}
    {proper : α → Prop} (built : ∀ x, proper x → decode (encode x) = some x)
    (yields : decode.Yields proper) : ReadsBack encode decode proper :=
  ⟨built, fun v x h => built x (yields v x h)⟩

theorem ReadsBack.of_all {α : Type} {encode : α → Value} {decode : Decoder α}
    (built : ∀ x, decode (encode x) = some x) :
    ReadsBack encode decode fun _ => True :=
  ⟨fun x _ => built x, fun _ x _ => built x⟩

end Json

/-! ## Pins and node kinds -/

@[simp] theorem Direction.ofJson?_toJson (direction : Direction) :
    ofJson? direction.toJson = some direction := by
  cases direction <;> rfl

namespace PinType

-- The element of an array is read as a nested type, so the claim is for both.
theorem read_toJson (nested : Bool) (type : PinType) :
    read nested type.toJson = some type := by
  induction type generalizing nested with
  | array element ih => simp [toJson, read, Table.findEntry, tag?, ih]
  | _ => simp [toJson, read, Table.findEntry, tag?, simple?, List.lookup_cons]

@[simp] theorem ofJson?_toJson (type : PinType) :
    ofJson? type.toJson = some type :=
  read_toJson false type

end PinType

namespace Pin

theorem ofJson?_toJson {pin : Pin} (h : pin.default ≠ some .null) :
    ofJson? pin.toJson = some pin := by
  simp [ofJson?, toJson, Decoder.optional_any h]

theorem yields_default :
    Decoder.Yields ofJson? fun pin => pin.default ≠ some .null := by
  intro v pin h
  unfold ofJson? at h
  split at h
  · simp only [Option.bind_eq_bind, Option.bind_eq_some_iff, Option.pure_def,
      Option.some.injEq] at h
    obtain ⟨_, -, _, -, _, -, default, hdefault, _, -, _, -, rfl⟩ := h
    exact Decoder.ne_null_of_optional hdefault
  · cases h

end Pin

namespace NodeKind

theorem ofJson?_toJson {kind : NodeKind}
    (h : ∀ pin ∈ kind.pins, pin.default ≠ some .null) :
    ofJson? kind.toJson = some kind := by
  have pins :=
    Decoder.list_ofListWith fun pin hpin => Pin.ofJson?_toJson (h pin hpin)
  simp [ofJson?, toJson, pins]

theorem yields_defaults :
    Decoder.Yields ofJson? fun kind =>
      ∀ pin ∈ kind.pins, pin.default ≠ some .null := by
  intro v kind h
  unfold ofJson? at h
  split at h
  · simp only [Option.bind_eq_bind, Option.bind_eq_some_iff, Option.pure_def,
      Option.some.injEq] at h
    obtain ⟨_, -, _, -, _, -, _, -, _, -, _, -, _, -, pins, hpins, _, -, rfl⟩ :=
      h
    exact Pin.yields_default.list.required hpins
  · cases h

end NodeKind

/-! ## Variables, parameters and connections -/

namespace Variable

theorem ofJson?_toJson {var : Variable} (h : var.default ≠ some .null) :
    ofJson? var.toJson = some var := by
  simp [ofJson?, toJson, Decoder.optional_any h]

theorem yields_default :
    Decoder.Yields ofJson? fun var => var.default ≠ some .null := by
  intro v var h
  unfold ofJson? at h
  split at h
  · simp only [Option.bind_eq_bind, Option.bind_eq_some_iff, Option.pure_def,
      Option.some.injEq] at h
    obtain ⟨_, -, default, hdefault, _, -, rfl⟩ := h
    exact Decoder.ne_null_of_optional hdefault
  · cases h

end Variable

namespace Parameter

theorem ofJson?_toJson {parameter : Parameter}
    (h : parameter.default ≠ some .null) :
    ofJson? parameter.toJson = some parameter := by
  simp [ofJson?, toJson, Decoder.optional_any h]

theorem yields_default :
    Decoder.Yields ofJson? fun parameter => parameter.default ≠ some .null := by
  intro v parameter h
  unfold ofJson? at h
  split at h
  · simp only [Option.bind_eq_bind, Option.bind_eq_some_iff, Option.pure_def,
      Option.some.injEq] at h
    obtain ⟨_, -, _, -, default, hdefault, _, -, rfl⟩ := h
    exact Decoder.ne_null_of_optional hdefault
  · cases h

end Parameter

@[simp] theorem Connection.ofJson?_toJson (connection : Connection) :
    ofJson? connection.toJson = some connection := by
  simp [ofJson?, toJson]

/-! ## Triggers and flows -/

namespace Trigger

theorem ofJson?_toJson {trigger : Trigger} (h : trigger.data ≠ some .null) :
    ofJson? trigger.toJson = some trigger := by
  simp [ofJson?, toJson, Decoder.optional_any h]

theorem yields_data :
    Decoder.Yields ofJson? fun trigger => trigger.data ≠ some .null := by
  intro v trigger h
  unfold ofJson? at h
  split at h
  · simp only [Option.bind_eq_bind, Option.bind_eq_some_iff, Option.pure_def,
      Option.some.injEq] at h
    obtain ⟨_, -, data, hdata, _, -, rfl⟩ := h
    exact Decoder.ne_null_of_optional hdata
  · cases h

end Trigger

namespace Flow

@[simp] theorem bound_ofInt (n : Int64) : bound (.ofInt n.toInt) = .ok n := by
  have bounded : Int64.minValue.toInt ≤ n.toInt ∧
      n.toInt ≤ Int64.maxValue.toInt :=
    ⟨n.minValue_le_toInt, n.toInt_le⟩
  simp only [bound, Value.ofInt, Number.toInt64?, if_pos bounded,
    Int64.ofInt_toInt]

theorem ofJson_toJson (flow : Flow) : ofJson flow.toJson = .ok flow := by
  cases flow with
  | sequence pins =>
      have texts : Decoder.list .text (.ofTexts pins) = some pins :=
        Decoder.list_ofListWith fun pin _ => Decoder.text_text pin
      simp [toJson, ofJson, Table.findEntry, readAs, Value.asText?,
        Value.fields?, demand, texts]
  | loop pin start stop current =>
      simp [toJson, ofJson, Table.findEntry, readAs, readLoopObject, readLoop,
        present, field, text, demand, Value.get?, Value.asText?, Except.map,
        Except.bind, bind, pure, Except.pure]
  | _ => simp [toJson, ofJson, Table.findEntry, readAs, Value.asText?,
    Value.fields?, demand]

end Flow

/-! ## Reports and limits -/

@[simp] theorem Status.ofJson?_toJson (status : Status) :
    ofJson? status.toJson = some status := by
  cases status <;> rfl

@[simp] theorem Condition.ofJson?_toJson (condition : Condition) :
    ofJson? condition.toJson = some condition := by
  cases condition <;> rfl

@[simp] theorem Diagnostic.ofJson?_toJson (diagnostic : Diagnostic) :
    ofJson? diagnostic.toJson = some diagnostic := by
  simp [ofJson?, toJson]

theorem Report.ofJson?_toJson (report : Report) :
    ofJson? report.toJson = some report := by
  have outputs :
      Decoder.table (.table .any) (.ofTableWith Value.ofTable report.outputs) =
      some report.outputs :=
    Decoder.table_ofTableWith fun entry _ => Decoder.table_ofTable entry.2
  have diagnostics : Decoder.orElse (.list Diagnostic.ofJson?) []
      (if report.diagnostics = [] then none
        else some (.ofListWith Diagnostic.toJson report.diagnostics)) =
      some report.diagnostics := by
    split
    case isTrue hnone => rw [hnone, Decoder.orElse_none]
    case isFalse =>
        rw [Decoder.orElse_some]
        exact Decoder.list_ofListWith fun diagnostic _ =>
          diagnostic.ofJson?_toJson
  simp [ofJson?, toJson, outputs, diagnostics]

theorem Limits.ofJson?_toJson (limits : Limits) :
    ofJson? limits.toJson = some limits := by
  simp [ofJson?, toJson]

/-! ## The data model -/

/-- What has been written is read as it was.  Only a null that was put where a
value may be missing is lost, and no document puts one there. -/
theorem data_model_reads_back :
    ReadsBack PinType.toJson PinType.ofJson? (fun _ => True) ∧
    ReadsBack Pin.toJson Pin.ofJson? (fun pin => pin.default ≠ some .null) ∧
    ReadsBack NodeKind.toJson NodeKind.ofJson?
      (fun kind => ∀ pin ∈ kind.pins, pin.default ≠ some .null) ∧
    ReadsBack Variable.toJson Variable.ofJson?
      (fun var => var.default ≠ some .null) ∧
    ReadsBack Parameter.toJson Parameter.ofJson?
      (fun parameter => parameter.default ≠ some .null) ∧
    ReadsBack Connection.toJson Connection.ofJson? (fun _ => True) ∧
    ReadsBack Trigger.toJson Trigger.ofJson?
      (fun trigger => trigger.data ≠ some .null) ∧
    ReadsBack Flow.toJson (fun v => (Flow.ofJson v).toOption) (fun _ => True) ∧
    ReadsBack Diagnostic.toJson Diagnostic.ofJson? (fun _ => True) ∧
    ReadsBack Report.toJson Report.ofJson? (fun _ => True) ∧
    ReadsBack Limits.toJson Limits.ofJson? (fun _ => True) := by
  refine ⟨.of_all PinType.ofJson?_toJson,
    .of_yields (fun _ => Pin.ofJson?_toJson) Pin.yields_default,
    .of_yields (fun _ => NodeKind.ofJson?_toJson) NodeKind.yields_defaults,
    .of_yields (fun _ => Variable.ofJson?_toJson) Variable.yields_default,
    .of_yields (fun _ => Parameter.ofJson?_toJson) Parameter.yields_default,
    .of_all Connection.ofJson?_toJson,
    .of_yields (fun _ => Trigger.ofJson?_toJson) Trigger.yields_data,
    .of_all fun flow => ?_, .of_all Diagnostic.ofJson?_toJson,
    .of_all Report.ofJson?_toJson,
    .of_all Limits.ofJson?_toJson⟩
  rw [Flow.ofJson_toJson, Except.toOption]

end ScriptGraph
