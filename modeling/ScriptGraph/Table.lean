/-!
# Tables

A `Table` is a finite map from text keys to values, kept as a list whose keys
strictly ascend in code point order.  The order is part of the type, so two
tables with the same look-ups are equal (`Table.ext_get?`), and the list of
entries is the order in which every answer writes its keys.
-/

namespace ScriptGraph

universe u v

abbrev keysOf {α : Type u} (entries : List (String × α)) : List String :=
  entries.map Prod.fst

/-- A finite map with strictly ascending keys. -/
structure Table (α : Type u) where
  entries : List (String × α)
  ascending : entries.Pairwise (fun a b => a.1 < b.1)
  deriving DecidableEq, Repr

namespace Table

variable {α : Type u} {β : Type v}

/-! ## Order on keys -/

theorem key_lt_of_not_lt_of_ne {a b : String} (h : ¬ a < b) (hne : a ≠ b) :
    b < a := by
  rcases String.le_total a b with hab | hba
  · exact absurd (String.le_antisymm hab (String.not_lt.mp h)) hne
  · exact Decidable.byContradiction fun hn =>
      hne (String.le_antisymm (String.not_lt.mp hn) hba)

/-! ## Entry lists -/

def findEntry (key : String) : List (String × α) → Option α
  | [] => none
  | (k, v) :: rest => if key = k then some v else findEntry key rest

def insertEntry (key : String) (value : α) :
    List (String × α) → List (String × α)
  | [] => [(key, value)]
  | (k, v) :: rest =>
    if key < k then (key, value) :: (k, v) :: rest
    else if key = k then (key, value) :: rest
    else (k, v) :: insertEntry key value rest

theorem key_mem_insertEntry {key k : String} {value : α}
    {entries : List (String × α)} :
    k ∈ keysOf (insertEntry key value entries) ↔
      k = key ∨ k ∈ keysOf entries := by
  induction entries with
  | nil => simp [insertEntry]
  | cons head rest ih =>
    obtain ⟨k', v'⟩ := head
    by_cases hlt : key < k'
    · simp [insertEntry, hlt]
    · by_cases heq : key = k'
      · subst heq
        simp [insertEntry]
      · simp only [insertEntry, hlt, heq, if_false, List.map_cons,
          List.mem_cons, ih]
        constructor <;> intro h <;> rcases h with h | h | h <;> simp [h]

theorem ascending_insertEntry (key : String) (value : α)
    {entries : List (String × α)}
    (h : entries.Pairwise (fun a b => a.1 < b.1)) :
    (insertEntry key value entries).Pairwise (fun a b => a.1 < b.1) := by
  induction entries with
  | nil => simp [insertEntry]
  | cons head rest ih =>
    obtain ⟨k', v'⟩ := head
    obtain ⟨hhead, hrest⟩ := List.pairwise_cons.mp h
    by_cases hlt : key < k'
    · simp only [insertEntry, hlt, if_true]
      refine List.pairwise_cons.mpr ⟨?_, h⟩
      intro entry hmem
      rcases List.mem_cons.mp hmem with rfl | hmem
      · exact hlt
      · exact String.lt_trans hlt (hhead entry hmem)
    · by_cases heq : key = k'
      · subst heq
        simp only [insertEntry, String.lt_irrefl, if_false, if_true]
        exact List.pairwise_cons.mpr ⟨hhead, hrest⟩
      · simp only [insertEntry, hlt, heq, if_false]
        refine List.pairwise_cons.mpr ⟨?_, ih hrest⟩
        intro entry hmem
        have hkey : entry.1 ∈ keysOf (insertEntry key value rest) :=
          List.mem_map_of_mem hmem
        rcases key_mem_insertEntry.mp hkey with hk | hk
        · rw [hk]
          exact key_lt_of_not_lt_of_ne hlt heq
        · obtain ⟨old, hold, hname⟩ := List.mem_map.mp hk
          rw [← hname]
          exact hhead old hold

theorem findEntry_insertEntry_self (key : String) (value : α)
    (entries : List (String × α)) :
    findEntry key (insertEntry key value entries) = some value := by
  induction entries with
  | nil => simp [insertEntry, findEntry]
  | cons head rest ih =>
    obtain ⟨k', v'⟩ := head
    by_cases hlt : key < k'
    · simp [insertEntry, findEntry, hlt]
    · by_cases heq : key = k'
      · simp [insertEntry, findEntry, heq]
      · simp [insertEntry, hlt, heq, findEntry, ih]

theorem findEntry_insertEntry_of_ne {key k : String} (value : α)
    (entries : List (String × α)) (hne : k ≠ key) :
    findEntry k (insertEntry key value entries) = findEntry k entries := by
  induction entries with
  | nil => simp [insertEntry, findEntry, hne]
  | cons head rest ih =>
    obtain ⟨k', v'⟩ := head
    by_cases hlt : key < k'
    · simp [insertEntry, hlt, findEntry, hne]
    · by_cases heq : key = k'
      · subst heq
        simp [insertEntry, findEntry, hne]
      · simp [insertEntry, hlt, heq, findEntry, ih]

theorem findEntry_eq_none_of_lt {key : String} {entries : List (String × α)}
    (h : ∀ entry ∈ entries, key < entry.1) : findEntry key entries = none := by
  induction entries with
  | nil => rfl
  | cons head rest ih =>
    obtain ⟨k', v'⟩ := head
    have hlt : key < k' := h (k', v') (List.mem_cons_self ..)
    have hne : key ≠ k' := fun heq => String.lt_irrefl k' (heq ▸ hlt)
    simp [findEntry, hne,
      ih fun entry hmem => h entry (List.mem_cons_of_mem _ hmem)]

theorem entries_eq_of_findEntry_eq {xs ys : List (String × α)}
    (hx : xs.Pairwise (fun a b => a.1 < b.1))
    (hy : ys.Pairwise (fun a b => a.1 < b.1))
    (h : ∀ key, findEntry key xs = findEntry key ys) : xs = ys := by
  induction xs generalizing ys with
  | nil =>
    cases ys with
    | nil => rfl
    | cons head rest => simpa [findEntry] using h head.1
  | cons x xs ih =>
    obtain ⟨kx, vx⟩ := x
    obtain ⟨hxhead, hxrest⟩ := List.pairwise_cons.mp hx
    cases ys with
    | nil => simpa [findEntry] using h kx
    | cons y ys =>
      obtain ⟨ky, vy⟩ := y
      obtain ⟨hyhead, hyrest⟩ := List.pairwise_cons.mp hy
      have hkeys : kx = ky := by
        refine Decidable.byContradiction fun hne => ?_
        by_cases hlt : kx < ky
        · have hnone : findEntry kx ((ky, vy) :: ys) = none := by
            refine findEntry_eq_none_of_lt fun entry hmem => ?_
            rcases List.mem_cons.mp hmem with rfl | hmem
            · exact hlt
            · exact String.lt_trans hlt (hyhead entry hmem)
          have hk := h kx
          rw [hnone] at hk
          simp [findEntry] at hk
        · have hgt := key_lt_of_not_lt_of_ne hlt hne
          have hnone : findEntry ky ((kx, vx) :: xs) = none := by
            refine findEntry_eq_none_of_lt fun entry hmem => ?_
            rcases List.mem_cons.mp hmem with rfl | hmem
            · exact hgt
            · exact String.lt_trans hgt (hxhead entry hmem)
          have hk := h ky
          rw [hnone] at hk
          simp [findEntry] at hk
      subst hkeys
      have hvals : vx = vy := by simpa [findEntry] using h kx
      subst hvals
      have hrest : xs = ys := by
        refine ih hxrest hyrest fun key => ?_
        by_cases hk : key = kx
        · subst hk
          rw [findEntry_eq_none_of_lt hxhead, findEntry_eq_none_of_lt hyhead]
        · simpa [findEntry, hk] using h key
      rw [hrest]

/-! ## Operations -/

def empty : Table α :=
  ⟨[], List.Pairwise.nil⟩

instance : EmptyCollection (Table α) := ⟨empty⟩

instance : Inhabited (Table α) := ⟨empty⟩

def get? (table : Table α) (key : String) : Option α :=
  findEntry key table.entries

def contains (table : Table α) (key : String) : Bool :=
  (table.get? key).isSome

def insert (table : Table α) (key : String) (value : α) : Table α :=
  ⟨insertEntry key value table.entries,
    ascending_insertEntry key value table.ascending⟩

def single (key : String) (value : α) : Table α :=
  ⟨[(key, value)], List.pairwise_singleton ..⟩

/-- Inserts the entries one after another, so the last value of a repeated key
stays. -/
def insertAll (table : Table α) (entries : List (String × α)) : Table α :=
  entries.foldl (fun acc entry => acc.insert entry.1 entry.2) table

def ofList (entries : List (String × α)) : Table α :=
  insertAll empty entries

def filter (table : Table α) (keep : String → α → Bool) : Table α :=
  ⟨table.entries.filter fun entry => keep entry.1 entry.2,
    table.ascending.filter _⟩

def erase (table : Table α) (key : String) : Table α :=
  table.filter fun k _ => k != key

def map (f : α → β) (table : Table α) : Table β :=
  ⟨table.entries.map fun entry => (entry.1, f entry.2), by
    rw [List.pairwise_map]
    exact table.ascending⟩

def keys (table : Table α) : List String :=
  keysOf table.entries

def values (table : Table α) : List α :=
  table.entries.map Prod.snd

def size (table : Table α) : Nat :=
  table.entries.length

def isEmpty (table : Table α) : Bool :=
  table.entries.isEmpty

/-! ## Laws -/

theorem ext_get? {xs ys : Table α} (h : ∀ key, xs.get? key = ys.get? key) :
    xs = ys := by
  obtain ⟨xs, hx⟩ := xs
  obtain ⟨ys, hy⟩ := ys
  have heq : xs = ys := entries_eq_of_findEntry_eq hx hy h
  subst heq
  rfl

@[simp] theorem get?_empty (key : String) :
    (empty : Table α).get? key = none := rfl

@[simp] theorem get?_insert_self (table : Table α) (key : String) (value : α) :
    (table.insert key value).get? key = some value :=
  findEntry_insertEntry_self key value table.entries

theorem get?_insert_of_ne (table : Table α) {key k : String} (value : α)
    (hne : k ≠ key) :
    (table.insert key value).get? k = table.get? k :=
  findEntry_insertEntry_of_ne value table.entries hne

theorem get?_insert (table : Table α) (key k : String) (value : α) :
    (table.insert key value).get? k =
      if k = key then some value else table.get? k := by
  by_cases hk : k = key
  · subst hk
    simp
  · simp [hk, get?_insert_of_ne table value hk]

@[simp] theorem get?_single (key k : String) (value : α) :
    (single key value).get? k = if k = key then some value else none := by
  by_cases hk : k = key <;> simp [single, get?, findEntry, hk]

theorem get?_insertAll_of_notMem {key : String} {entries : List (String × α)}
    (table : Table α) (h : key ∉ keysOf entries) :
    (table.insertAll entries).get? key = table.get? key := by
  induction entries generalizing table with
  | nil => rfl
  | cons entry rest ih =>
    obtain ⟨hne, hrest⟩ : key ≠ entry.1 ∧ key ∉ keysOf rest := by simpa using h
    exact (ih (table.insert entry.1 entry.2) hrest).trans
      (get?_insert_of_ne table entry.2 hne)

theorem get?_insertAll_of_mem {entry : String × α} {entries : List (String × α)}
    (table : Table α) (distinct : (keysOf entries).Nodup)
    (h : entry ∈ entries) :
    (table.insertAll entries).get? entry.1 = some entry.2 := by
  induction entries generalizing table with
  | nil => simp at h
  | cons first rest ih =>
    obtain ⟨hfirst, hrest⟩ := List.nodup_cons.mp distinct
    rcases List.mem_cons.mp h with rfl | hmem
    · have kept :=
        get?_insertAll_of_notMem (table.insert entry.1 entry.2) hfirst
      exact kept.trans (get?_insert_self table entry.1 entry.2)
    · exact ih (table.insert first.1 first.2) hrest hmem

/-! ## Entries and look-ups -/

theorem mem_of_findEntry {key : String} {value : α}
    {entries : List (String × α)} (h : findEntry key entries = some value) :
    (key, value) ∈ entries := by
  induction entries with
  | nil => simp [findEntry] at h
  | cons entry rest ih =>
      obtain ⟨name, found⟩ := entry
      by_cases hkey : key = name
      · simp [findEntry, hkey] at h
        simp [hkey, h]
      · simp only [findEntry, hkey, if_false] at h
        exact List.mem_cons_of_mem _ (ih h)

theorem notMem_keysOf_of_findEntry {key : String} {entries : List (String × α)}
    (h : findEntry key entries = none) : key ∉ keysOf entries := by
  induction entries with
  | nil => simp
  | cons entry rest ih =>
      obtain ⟨name, found⟩ := entry
      by_cases hkey : key = name
      · simp [findEntry, hkey] at h
      · simp only [findEntry, hkey, if_false] at h
        simpa [hkey] using ih h

theorem keys_nodup (table : Table α) : (keysOf table.entries).Nodup := by
  refine List.pairwise_map.mpr (table.ascending.imp ?_)
  intro first second hlt heq
  exact String.lt_irrefl _ (heq ▸ hlt)

@[simp] theorem ofList_entries (table : Table α) :
    ofList table.entries = table := by
  refine ext_get? fun key => ?_
  cases hfound : findEntry key table.entries with
  | none =>
      have absent := notMem_keysOf_of_findEntry hfound
      exact (get?_insertAll_of_notMem empty absent).trans hfound.symm
  | some value =>
      have present := mem_of_findEntry hfound
      exact (get?_insertAll_of_mem empty table.keys_nodup present).trans
        hfound.symm

theorem get?_eq_some_iff {table : Table α} {key : String} {value : α} :
    table.get? key = some value ↔ (key, value) ∈ table.entries := by
  constructor
  · exact mem_of_findEntry
  · intro present
    have found := get?_insertAll_of_mem empty table.keys_nodup present
    rwa [← ofList, ofList_entries] at found

theorem get?_filter (table : Table α) (keep : String → α → Bool)
    (key : String) :
    (table.filter keep).get? key = (table.get? key).filter (keep key) := by
  apply Option.ext
  intro value
  rw [get?_eq_some_iff, Option.filter_eq_some_iff, get?_eq_some_iff]
  exact List.mem_filter

theorem filter_key_eq_findEntry {entries : List (String × α)}
    (ascending : entries.Pairwise (fun a b => a.1 < b.1)) (key : String) :
    entries.filter (fun entry => entry.1 == key) =
      ((findEntry key entries).map fun value => (key, value)).toList := by
  induction entries with
  | nil => rfl
  | cons first rest ih =>
    obtain ⟨name, value⟩ := first
    obtain ⟨hfirst, hrest⟩ := List.pairwise_cons.mp ascending
    by_cases hkey : name = key
    · subst hkey
      have absent : findEntry name rest = none := findEntry_eq_none_of_lt hfirst
      simp [findEntry, ih hrest, absent]
    · simp [findEntry, ih hrest, hkey, Ne.symm hkey]

theorem isEmpty_iff {table : Table α} :
    table.isEmpty = true ↔ ∀ key, table.get? key = none := by
  constructor
  · intro none key
    rw [get?, List.isEmpty_iff.mp none]
    rfl
  · intro absent
    cases hentries : table.entries with
    | nil => simp [isEmpty, hentries]
    | cons entry rest =>
      have present : table.get? entry.1 = some entry.2 :=
        get?_eq_some_iff.mpr (by simp [hentries])
      rw [absent] at present
      cases present

end Table

end ScriptGraph
