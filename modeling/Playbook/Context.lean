import Playbook.Datum
/-!
# Contexts from data

A mapping of data becomes a context when each of its values is a context value. The first one that
is not decides the fault.
-/

namespace Playbook

namespace Context

/-- Turns the data of named entries into values, in order. -/
def convert : List (String × Datum) → Except Fault (List (String × Value))
  | [] => .ok []
  | (name, d) :: rest => do
    let v ← d.toValue
    let values ← convert rest
    return (name, v) :: values

/-- The context that a mapping of data describes. -/
def ofData (data : OrderedMap String Datum) : Except Fault Context := do
  let values ← convert data.entries
  return .ofEntries values

/-- A context as a mapping of data. -/
def toData (context : Context) : OrderedMap String Datum :=
  context.mapValues .plain

/-- Writes an entry under a scalar key; keys that count as equal are one key, written as it was
first. -/
def putKey (key : Value) (d : Datum) : List (Value × Datum) → List (Value × Datum)
  | [] => [(key, d)]
  | (k, old) :: rest => if k.same key then (k, d) :: rest else (k, old) :: putKey key d rest

/-- Turns entries under scalar keys into named values, in order. -/
def convertKeyed : List (Value × Datum) → Except Fault (List (String × Value))
  | [] => .ok []
  | (key, d) :: rest => do
    let name ← key.asName
    let v ← d.toValue
    let values ← convertKeyed rest
    return (name, v) :: values

/-- The context that entries under scalar keys describe; keys turn into names as they are shown. -/
def ofKeyed (entries : List (Value × Datum)) : Except Fault Context := do
  let values ← convertKeyed (entries.foldl (fun done e => putKey e.1 e.2 done) [])
  return .ofEntries values

/-- The value of a name; null when it has none. -/
def valueOf (context : Context) (name : String) : Value :=
  (context.get? name).getD .null

theorem toValue_plain (v : Value) : Datum.toValue (.plain v) = .ok v := rfl

theorem convert_map_plain (entries : List (String × Value)) :
    convert (entries.map fun e => (e.1, Datum.plain e.2)) = .ok entries := by
  induction entries with
  | nil => rfl
  | cons e rest ih => simp [convert, ih, toValue_plain, bind, Except.bind, pure, Except.pure]

theorem convert_cons_eq_ok_iff {name : String} {d : Datum} {rest : List (String × Datum)}
    {values : List (String × Value)} :
    convert ((name, d) :: rest) = .ok values ↔
      ∃ v others, d.toValue = .ok v ∧ convert rest = .ok others ∧ values = (name, v) :: others := by
  simp only [convert, bind, Except.bind, pure, Except.pure]
  rcases d.toValue with f | v
  · simp
  · rcases convert rest with f | others
    · simp
    · simp [eq_comm]

theorem convert_exists {data : List (String × Datum)}
    (h : ∀ e ∈ data, ∃ v, e.2.toValue = .ok v) : ∃ values, convert data = .ok values := by
  induction data with
  | nil => exact ⟨[], rfl⟩
  | cons e rest ih =>
    obtain ⟨v, hv⟩ := h e List.mem_cons_self
    obtain ⟨others, ho⟩ := ih fun e he => h e (List.mem_cons_of_mem _ he)
    exact ⟨_, convert_cons_eq_ok_iff.2 ⟨v, others, hv, ho, rfl⟩⟩

theorem toValue_of_convert {data : List (String × Datum)} {values : List (String × Value)}
    (h : convert data = .ok values) : ∀ e ∈ data, ∃ v, e.2.toValue = .ok v := by
  induction data generalizing values with
  | nil => exact fun _ he => absurd he List.not_mem_nil
  | cons e rest ih =>
    obtain ⟨v, others, hv, ho, -⟩ := convert_cons_eq_ok_iff.1 h
    intro e' he
    rcases List.mem_cons.1 he with rfl | he
    · exact ⟨v, hv⟩
    · exact ih ho e' he

theorem map_fst_of_convert {data : List (String × Datum)} {values : List (String × Value)}
    (h : convert data = .ok values) : values.map Prod.fst = data.map Prod.fst := by
  induction data generalizing values with
  | nil =>
    cases h
    rfl
  | cons e rest ih =>
    obtain ⟨v, others, -, ho, rfl⟩ := convert_cons_eq_ok_iff.1 h
    rw [List.map_cons, List.map_cons, ih ho]

theorem find?_of_convert {data : List (String × Datum)} {values : List (String × Value)}
    (h : convert data = .ok values) (name : String) :
    (values.find? (·.1 = name)).map Prod.snd =
      ((data.find? (·.1 = name)).map Prod.snd).bind (·.toValue.toOption) := by
  induction data generalizing values with
  | nil =>
    cases h
    rfl
  | cons e rest ih =>
    obtain ⟨v, others, hv, ho, rfl⟩ := convert_cons_eq_ok_iff.1 h
    by_cases hn : e.1 = name
    · simp [hn, hv, Except.toOption]
    · simpa [hn] using ih ho

/-- A context has the entries that its data convert to, in their order. -/
theorem ofData_eq_ok_iff {data : OrderedMap String Datum} {context : Context} :
    ofData data = .ok context ↔ convert data.entries = .ok context.entries := by
  simp only [ofData, bind, Except.bind, pure, Except.pure]
  rcases hc : convert data.entries with f | values
  · simp
  · have hd : (values.map Prod.fst).Nodup := map_fst_of_convert hc ▸ data.distinct
    have hv : OrderedMap.ofEntries values = ⟨values, hd⟩ :=
      OrderedMap.ofEntries_entries ⟨values, hd⟩
    simp only [hv, Except.ok.injEq]
    exact ⟨fun h => h ▸ rfl, fun h => OrderedMap.ext h⟩

theorem ofData_exists {data : OrderedMap String Datum}
    (h : ∀ e ∈ data.entries, ∃ v, e.2.toValue = .ok v) : ∃ context, ofData data = .ok context := by
  obtain ⟨values, hv⟩ := convert_exists h
  unfold ofData
  rw [hv]
  exact ⟨_, rfl⟩

theorem toValue_of_ofData {data : OrderedMap String Datum} {context : Context}
    (h : ofData data = .ok context) : ∀ e ∈ data.entries, ∃ v, e.2.toValue = .ok v :=
  toValue_of_convert (ofData_eq_ok_iff.1 h)

theorem keys_of_ofData {data : OrderedMap String Datum} {context : Context}
    (h : ofData data = .ok context) : context.keys = data.keys :=
  map_fst_of_convert (ofData_eq_ok_iff.1 h)

theorem get?_of_ofData {data : OrderedMap String Datum} {context : Context}
    (h : ofData data = .ok context) (name : String) :
    context.get? name = (data.get? name).bind (·.toValue.toOption) :=
  find?_of_convert (ofData_eq_ok_iff.1 h) name

@[simp]
theorem ofData_toData (context : Context) : ofData context.toData = .ok context :=
  ofData_eq_ok_iff.2 (convert_map_plain context.entries)

end Context

end Playbook
