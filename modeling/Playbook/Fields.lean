import Playbook.Value
/-!
# Values by field

What a walk knows stands under the fields that it was looked up for. A lookup may be for no field
at all: its value stands in its place among the others, but it has no name, so templates and
conditions cannot ask for it (`Fields.named`). It is given one only when the fields are stored
(`Fields.stored`).
-/

namespace Playbook

/-- Values under the names of fields, and one that was looked up for no field under none. -/
abbrev Fields := OrderedMap (Option String) Value

namespace Fields

section Entries

variable {entries : List (Option String × Value)}

/-- The entries that have a name. -/
def namedEntries : List (Option String × Value) → List (String × Value)
  | [] => []
  | (some name, v) :: rest => (name, v) :: namedEntries rest
  | (none, _) :: rest => namedEntries rest

theorem mem_namedEntries {name : String} {v : Value} :
    (name, v) ∈ namedEntries entries ↔ (some name, v) ∈ entries := by
  induction entries with
  | nil => simp [namedEntries]
  | cons e rest ih =>
    obtain ⟨_ | field, w⟩ := e <;> simp [namedEntries, ih]

theorem nodup_namedEntries (h : (entries.map Prod.fst).Nodup) :
    ((namedEntries entries).map Prod.fst).Nodup := by
  induction entries with
  | nil => exact List.nodup_nil
  | cons e rest ih =>
    obtain ⟨hn, hr⟩ := List.nodup_cons.1 h
    obtain ⟨_ | field, v⟩ := e
    · exact ih hr
    · refine List.nodup_cons.2 ⟨fun hm => hn ?_, ih hr⟩
      obtain ⟨⟨name, w⟩, hw, he⟩ := List.mem_map.1 hm
      exact List.mem_map.2 ⟨_, mem_namedEntries.1 hw, congrArg some he⟩

theorem namedEntries_put_some (name : String) (v : Value) :
    namedEntries (OrderedMap.put (some name) v entries) =
      OrderedMap.put name v (namedEntries entries) := by
  induction entries with
  | nil => rfl
  | cons e rest ih =>
    obtain ⟨_ | field, w⟩ := e
    · simp [OrderedMap.put, namedEntries, ih]
    · by_cases h : field = name <;> simp [OrderedMap.put, namedEntries, ih, h]

theorem namedEntries_put_none (v : Value) :
    namedEntries (OrderedMap.put none v entries) = namedEntries entries := by
  induction entries with
  | nil => rfl
  | cons e rest ih =>
    obtain ⟨_ | field, w⟩ := e
    · simp [OrderedMap.put, namedEntries]
    · simp [OrderedMap.put, namedEntries, ih]

theorem namedEntries_map_some (entries : List (String × Value)) :
    namedEntries (entries.map fun e => (some e.1, e.2)) = entries := by
  induction entries with
  | nil => rfl
  | cons e rest ih => simp [namedEntries, ih]

end Entries

/-- The values that have a name: those that can be asked for. -/
def named (fields : Fields) : Context :=
  ⟨namedEntries fields.entries, nodup_namedEntries fields.distinct⟩

/-- A context, in which all values have a name. -/
def ofContext (context : Context) : Fields :=
  ⟨context.entries.map fun e => (some e.1, e.2), by
    have he : (context.entries.map fun e => (some e.1, e.2)).map Prod.fst =
        (context.entries.map Prod.fst).map some := by
      simp only [List.map_map, Function.comp_def]
    rw [he]
    exact List.pairwise_map.2 (context.distinct.imp fun hne he => hne (Option.some.inj he))⟩

/-- The fields as they are stored: every value has the name that is shown for its field. -/
def stored (fields : Fields) : Context :=
  .ofEntries (fields.entries.map fun e => (shownText e.1, e.2))

@[simp]
theorem named_empty : named .empty = .empty := rfl

@[simp]
theorem named_insert_some (fields : Fields) (name : String) (v : Value) :
    named (fields.insert (some name) v) = fields.named.insert name v :=
  OrderedMap.ext (namedEntries_put_some name v)

@[simp]
theorem named_insert_none (fields : Fields) (v : Value) :
    named (fields.insert none v) = fields.named :=
  OrderedMap.ext (namedEntries_put_none v)

@[simp]
theorem named_ofContext (context : Context) : (ofContext context).named = context :=
  OrderedMap.ext (namedEntries_map_some context.entries)

end Fields

end Playbook
