/-!
# Maps in order of insertion

A list of entries with distinct keys. Writing a key that is there keeps its place and replaces its
value; a new key comes last. Lookup after an insertion is `get?_insert`, the keys after it are
`keys_insert`.
-/

namespace Playbook

/-- Entries in order of first insertion, each key once. -/
structure OrderedMap (κ α : Type) where
  entries : List (κ × α)
  distinct : (entries.map Prod.fst).Nodup
deriving DecidableEq

namespace OrderedMap

variable {κ α β : Type} [DecidableEq κ]

/-- Replaces the value of the first entry with a key, or adds an entry at the end. -/
def put (key : κ) (value : α) : List (κ × α) → List (κ × α)
  | [] => [(key, value)]
  | (k, v) :: rest => if k = key then (k, value) :: rest else (k, v) :: put key value rest

theorem map_fst_put (key : κ) (value : α) (entries : List (κ × α)) :
    (put key value entries).map Prod.fst =
      if key ∈ entries.map Prod.fst then entries.map Prod.fst
      else entries.map Prod.fst ++ [key] := by
  induction entries with
  | nil => simp [put]
  | cons e rest ih =>
    obtain ⟨k, v⟩ := e
    simp only [put]
    split
    · simp_all
    · rename_i h
      have h' : key ≠ k := fun e => h e.symm
      simp only [List.map_cons, ih, List.mem_cons, h', false_or]
      split <;> simp

theorem nodup_put {key : κ} {value : α} {entries : List (κ × α)}
    (h : (entries.map Prod.fst).Nodup) : ((put key value entries).map Prod.fst).Nodup := by
  rw [map_fst_put]
  split
  · exact h
  · rename_i hk
    rw [List.nodup_append]
    exact ⟨h, by simp, fun a ha b hb => by
      simp only [List.mem_singleton] at hb
      rintro rfl
      exact hk (hb ▸ ha)⟩

def empty : OrderedMap κ α := ⟨[], List.nodup_nil⟩

instance : Inhabited (OrderedMap κ α) := ⟨⟨[], List.nodup_nil⟩⟩

def keys (m : OrderedMap κ α) : List κ :=
  m.entries.map Prod.fst

def values (m : OrderedMap κ α) : List α :=
  m.entries.map Prod.snd

def isEmpty (m : OrderedMap κ α) : Bool :=
  m.entries.isEmpty

def insert (m : OrderedMap κ α) (key : κ) (value : α) : OrderedMap κ α :=
  ⟨put key value m.entries, nodup_put m.distinct⟩

def get? (m : OrderedMap κ α) (key : κ) : Option α :=
  (m.entries.find? (·.1 = key)).map Prod.snd

def contains (m : OrderedMap κ α) (key : κ) : Bool :=
  (m.get? key).isSome

def erase (m : OrderedMap κ α) (key : κ) : OrderedMap κ α :=
  ⟨m.entries.filter (·.1 ≠ key),
    m.distinct.sublist (List.filter_sublist.map Prod.fst)⟩

/-- The entries whose key and value satisfy a test. -/
def filter (m : OrderedMap κ α) (p : κ → α → Bool) : OrderedMap κ α :=
  ⟨m.entries.filter fun e => p e.1 e.2,
    m.distinct.sublist (List.filter_sublist.map Prod.fst)⟩

/-- Writes a list of entries one after the other. -/
def insertAll (m : OrderedMap κ α) (entries : List (κ × α)) : OrderedMap κ α :=
  entries.foldl (fun m e => m.insert e.1 e.2) m

/-- The map that a list of entries writes: a repeated key keeps its first place and has its last
value. -/
def ofEntries (entries : List (κ × α)) : OrderedMap κ α :=
  insertAll empty entries

def mapValues (f : α → β) (m : OrderedMap κ α) : OrderedMap κ β :=
  ⟨m.entries.map fun e => (e.1, f e.2), by
    simpa [List.map_map, Function.comp_def] using m.distinct⟩

/-- Whether all entries satisfy a relation between key and value. -/
def Every (p : κ → α → Prop) (m : OrderedMap κ α) : Prop :=
  ∀ e ∈ m.entries, p e.1 e.2

theorem mem_put {key : κ} {value : α} {entries : List (κ × α)} {e : κ × α}
    (h : e ∈ put key value entries) : e = (key, value) ∨ e ∈ entries := by
  induction entries with
  | nil => simpa [put] using h
  | cons first rest ih =>
    simp only [put] at h
    split at h
    · rename_i hk
      rcases List.mem_cons.1 h with rfl | h
      · exact .inl (by rw [hk])
      · exact .inr (List.mem_cons_of_mem _ h)
    · rcases List.mem_cons.1 h with rfl | h
      · exact .inr List.mem_cons_self
      · exact (ih h).imp_right (List.mem_cons_of_mem _)

theorem Every.insert {p : κ → α → Prop} {m : OrderedMap κ α} {key : κ} {value : α}
    (hm : m.Every p) (h : p key value) : (m.insert key value).Every p := by
  intro e he
  rcases mem_put he with rfl | he
  · exact h
  · exact hm e he

omit [DecidableEq κ] in
theorem every_empty (p : κ → α → Prop) : (empty : OrderedMap κ α).Every p :=
  fun _ h => absurd h List.not_mem_nil

omit [DecidableEq κ] in
theorem eq_of_mem {m : OrderedMap κ α} {key : κ} {v w : α} (hv : (key, v) ∈ m.entries)
    (hw : (key, w) ∈ m.entries) : v = w := by
  obtain ⟨entries, hd⟩ := m
  induction entries with
  | nil => exact absurd hv List.not_mem_nil
  | cons e rest ih =>
    obtain ⟨hk, hd⟩ := List.nodup_cons.1 hd
    rcases List.mem_cons.1 hv with rfl | hv <;> rcases List.mem_cons.1 hw with hw | hw
    · exact (congrArg Prod.snd hw).symm
    · exact absurd (List.mem_map_of_mem hw) hk
    · exact absurd (List.mem_map_of_mem hv) (hw ▸ hk)
    · exact ih hd hv hw

theorem get?_eq_some_iff {m : OrderedMap κ α} {key : κ} {value : α} :
    m.get? key = some value ↔ (key, value) ∈ m.entries := by
  constructor
  · intro h
    obtain ⟨⟨k, v⟩, he, rfl⟩ := Option.map_eq_some_iff.1 h
    obtain rfl : k = key := by simpa using List.find?_some he
    exact List.mem_of_find?_eq_some he
  · intro h
    rcases hg : m.get? key with _ | v
    · rw [get?, Option.map_eq_none_iff, List.find?_eq_none] at hg
      simpa using hg _ h
    · obtain ⟨⟨k, w⟩, he, rfl⟩ := Option.map_eq_some_iff.1 hg
      obtain rfl : k = key := by simpa using List.find?_some he
      rw [eq_of_mem (List.mem_of_find?_eq_some he) h]

theorem Every.get? {p : κ → α → Prop} {m : OrderedMap κ α} {key : κ} {value : α}
    (hm : m.Every p) (h : m.get? key = some value) : p key value :=
  hm _ (get?_eq_some_iff.1 h)

omit [DecidableEq κ] in
theorem ext {m m' : OrderedMap κ α} (h : m.entries = m'.entries) : m = m' := by
  cases m
  cases m'
  simp_all

theorem keys_insert (m : OrderedMap κ α) (key : κ) (value : α) :
    (m.insert key value).keys = if key ∈ m.keys then m.keys else m.keys ++ [key] :=
  map_fst_put key value m.entries

theorem find?_put (key : κ) (value : α) (entries : List (κ × α)) (k : κ) :
    ((put key value entries).find? (·.1 = k)).map Prod.snd =
      if k = key then some value else (entries.find? (·.1 = k)).map Prod.snd := by
  induction entries with
  | nil => by_cases h : k = key <;> simp [put, h, eq_comm]
  | cons e rest ih =>
    obtain ⟨k', v⟩ := e
    simp only [put]
    by_cases hk : k' = key
    · subst hk
      by_cases h : k = k'
      · simp [h]
      · simp [h, Ne.symm h]
    · simp only [hk, if_false, List.find?_cons]
      by_cases h : k' = k
      · subst h
        simp [hk]
      · simpa [h] using ih

@[simp]
theorem get?_insert (m : OrderedMap κ α) (key : κ) (value : α) (k : κ) :
    (m.insert key value).get? k = if k = key then some value else m.get? k :=
  find?_put key value m.entries k

@[simp]
theorem get?_empty (k : κ) : (empty : OrderedMap κ α).get? k = none := rfl

@[simp]
theorem get?_erase (m : OrderedMap κ α) (key k : κ) :
    (m.erase key).get? k = if k = key then none else m.get? k := by
  obtain ⟨entries, h⟩ := m
  simp only [erase, get?]
  clear h
  induction entries with
  | nil => simp
  | cons e rest ih =>
    obtain ⟨k', v⟩ := e
    by_cases h : k' = key
    · subst h
      by_cases hk : k = k'
      · subst hk
        simp
      · simp only [hk, if_false] at ih
        simpa [hk, Ne.symm hk] using ih
    · by_cases hk : k' = k
      · subst hk
        simp [h]
      · simpa [h, hk] using ih

/-- A map is what it holds under its keys, in their order. -/
theorem ext_get? {m m' : OrderedMap κ α} (hk : m.keys = m'.keys)
    (h : ∀ key, m.get? key = m'.get? key) : m = m' := by
  have hview (m : OrderedMap κ α) :
      m.entries.map (fun e => (e.1, some e.2)) = m.keys.map fun key => (key, m.get? key) := by
    rw [keys, List.map_map]
    exact List.map_congr_left fun e he => Prod.ext rfl (get?_eq_some_iff.2 he).symm
  have hinj : ∀ e e' : κ × α, (e.1, some e.2) = (e'.1, some e'.2) → e = e' := fun e e' he =>
    Prod.ext (Prod.mk.inj he).1 (Option.some.inj (Prod.mk.inj he).2)
  refine ext ((List.map_inj_right hinj).1 ?_)
  rw [hview, hview, hk]
  exact List.map_congr_left fun key _ => by rw [h]

section Keys

omit [DecidableEq κ] in
theorem keys_nodup (m : OrderedMap κ α) : m.keys.Nodup := m.distinct

theorem get?_eq_none_iff {m : OrderedMap κ α} {key : κ} : m.get? key = none ↔ key ∉ m.keys := by
  simp only [get?, Option.map_eq_none_iff, List.find?_eq_none, keys, List.mem_map,
    decide_eq_true_eq, not_exists, not_and]

theorem contains_iff {m : OrderedMap κ α} {key : κ} : m.contains key = true ↔ key ∈ m.keys := by
  rw [← Decidable.not_iff_not, ← get?_eq_none_iff, contains, Bool.not_eq_true,
    Option.isSome_eq_false_iff, Option.isNone_iff_eq_none]

theorem mem_keys_iff {m : OrderedMap κ α} {key : κ} :
    key ∈ m.keys ↔ ∃ value, m.get? key = some value := by
  rw [← contains_iff, contains, Option.isSome_iff_exists]

theorem mem_keys_insert {m : OrderedMap κ α} {key : κ} {value : α} {k : κ} :
    k ∈ (m.insert key value).keys ↔ k = key ∨ k ∈ m.keys := by
  rw [keys_insert]
  split
  · rename_i h
    exact ⟨.inr, fun hk => hk.elim (· ▸ h) id⟩
  · rw [List.mem_append, List.mem_singleton, or_comm]

theorem put_of_not_mem {key : κ} {value : α} {entries : List (κ × α)}
    (h : key ∉ entries.map Prod.fst) : put key value entries = entries ++ [(key, value)] := by
  induction entries with
  | nil => rfl
  | cons e rest ih =>
    obtain ⟨k, v⟩ := e
    rw [List.map_cons, List.mem_cons, not_or] at h
    rw [put, if_neg fun hk => h.1 hk.symm, ih h.2, List.cons_append]

theorem eraseDups_of_nodup {l : List κ} (h : l.Nodup) : l.eraseDups = l := by
  induction l with
  | nil => rfl
  | cons a l ih =>
    obtain ⟨ha, hl⟩ := List.nodup_cons.1 h
    have hf : l.filter (fun b => !b == a) = l :=
      List.filter_eq_self.2 fun b hb => by
        simp only [Bool.not_eq_true', beq_eq_false_iff_ne]
        rintro rfl
        exact ha hb
    rw [List.eraseDups_cons, hf, ih hl]

end Keys

section InsertAll

variable (m : OrderedMap κ α) (entries : List (κ × α))

@[simp]
theorem insertAll_nil : m.insertAll [] = m := rfl

theorem insertAll_cons (e : κ × α) :
    m.insertAll (e :: entries) = (m.insert e.1 e.2).insertAll entries := rfl

theorem insertAll_append (later : List (κ × α)) :
    m.insertAll (entries ++ later) = (m.insertAll entries).insertAll later :=
  List.foldl_append

/-- A key has the value last written under it. -/
theorem get?_insertAll (key : κ) :
    (m.insertAll entries).get? key = (entries.reverse.lookup key).or (m.get? key) := by
  induction entries generalizing m with
  | nil => rfl
  | cons e rest ih =>
    obtain ⟨k, v⟩ := e
    rw [insertAll_cons, ih, get?_insert, List.reverse_cons, List.lookup_append, Option.or_assoc]
    by_cases h : key = k
    · simp [h]
    · simp [h, List.lookup_cons, beq_eq_false_iff_ne.2 h]

/-- The keys stand in the order of their first appearance. -/
theorem keys_insertAll :
    (m.insertAll entries).keys = (m.keys ++ entries.map Prod.fst).eraseDups := by
  induction entries generalizing m with
  | nil => rw [insertAll_nil, List.map_nil, List.append_nil, eraseDups_of_nodup m.keys_nodup]
  | cons e rest ih =>
    rw [insertAll_cons, ih, keys_insert, List.map_cons]
    split
    · rename_i h
      rw [List.eraseDups_append, List.eraseDups_append]
      simp [List.removeAll, h]
    · rw [List.append_assoc, List.singleton_append]

theorem entries_insertAll (h : (m.keys ++ entries.map Prod.fst).Nodup) :
    (m.insertAll entries).entries = m.entries ++ entries := by
  induction entries generalizing m with
  | nil => simp
  | cons e rest ih =>
    have hk : e.1 ∉ m.keys := fun hk =>
      (List.nodup_append.1 h).2.2 _ hk _ List.mem_cons_self rfl
    have hi : (m.insert e.1 e.2).keys = m.keys ++ [e.1] := by rw [keys_insert, if_neg hk]
    have he : (m.insert e.1 e.2).entries = m.entries ++ [e] := put_of_not_mem hk
    rw [insertAll_cons, ih _ (by simpa [hi] using h), he, List.append_assoc,
      List.singleton_append]

/-- Writing entries once more changes nothing. -/
theorem insertAll_insertAll : (m.insertAll entries).insertAll entries = m.insertAll entries := by
  refine ext_get? ?_ fun key => ?_
  · have hk : ∀ key ∈ entries.map Prod.fst, key ∈ (m.insertAll entries).keys := fun key h => by
      rw [keys_insertAll, List.mem_eraseDups]
      exact List.mem_append_right _ h
    have hnone : (entries.map Prod.fst).removeAll (m.insertAll entries).keys = [] :=
      List.filter_eq_nil_iff.2 fun key h => by simpa using hk key h
    rw [keys_insertAll _ entries, List.eraseDups_append, hnone,
      eraseDups_of_nodup (m.insertAll entries).keys_nodup, List.eraseDups_nil, List.append_nil]
  · rw [get?_insertAll, get?_insertAll]
    cases entries.reverse.lookup key <;> rfl

theorem ofEntries_entries : ofEntries m.entries = m :=
  ext (entries_insertAll empty m.entries m.distinct)

end InsertAll

section MapValues

variable (f : α → β) (m : OrderedMap κ α)

omit [DecidableEq κ] in
theorem keys_mapValues : (m.mapValues f).keys = m.keys := by
  simp [keys, mapValues, Function.comp_def]

theorem get?_mapValues (key : κ) : (m.mapValues f).get? key = (m.get? key).map f := by
  simp only [get?, mapValues, List.find?_map, Option.map_map]
  rfl

end MapValues

end OrderedMap

end Playbook
