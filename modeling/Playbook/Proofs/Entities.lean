import Playbook.Proofs.Confidence

/-!
# The entities of a reply

A reply of the language model states entities if it is an object that is understood
(`Intent.Understood`): what it has as entities is a mapping, and its confidence is no integer
beyond all floating-point numbers. Then exactly those entries of the mapping are kept that convert
to values; of any other reply nothing is (`Recogniser.readReply_tells`). The reader of JSON texts
takes a repeated name once, so that no entry hides another (`JsonText.read_distinct`).
-/

namespace Playbook

/-- No mapping within a datum has two fields of one name. -/
inductive Datum.Distinct : Datum → Prop
  | plain (v : Value) : Distinct (.plain v)
  | list {items : List Datum} (all : ∀ d ∈ items, Distinct d) : Distinct (.list items)
  | dict {fields : List (String × Datum)} (names : (fields.map Prod.fst).Nodup)
      (all : ∀ e ∈ fields, Distinct e.2) : Distinct (.dict fields)

namespace Datum

theorem distinct_nil : (Datum.dict []).Distinct :=
  .dict List.nodup_nil fun _ hm => absurd hm List.not_mem_nil

theorem Distinct.items {items : List Datum} (h : (Datum.list items).Distinct) :
    ∀ d ∈ items, d.Distinct := by
  cases h with
  | list all => exact all

theorem Distinct.names {fields : List (String × Datum)} (h : (Datum.dict fields).Distinct) :
    (fields.map Prod.fst).Nodup := by
  cases h with
  | dict names => exact names

theorem Distinct.put {done : List (String × Datum)} {d : Datum} (h : (Datum.dict done).Distinct)
    (hd : d.Distinct) (name : String) : (Datum.dict (OrderedMap.put name d done)).Distinct := by
  cases h with
  | dict names all =>
    refine .dict (OrderedMap.nodup_put names) fun e hm => ?_
    rcases OrderedMap.mem_put hm with rfl | hm
    · exact hd
    · exact all e hm

end Datum

namespace JsonText

open Datum (distinct_nil)

theorem readMagnitude_distinct {negative : Bool} {start text rest : List Char} {d : Datum}
    (h : readMagnitude negative start text = .ok (d, rest)) : d.Distinct := by
  unfold readMagnitude at h
  dsimp only at h
  split_ifs at h <;> cases h <;> exact .plain _

theorem readScalar_distinct {text rest : List Char} {d : Datum}
    (h : readScalar text = .ok (d, rest)) : d.Distinct := by
  unfold readScalar at h
  split at h
  · cases h
    exact .plain _
  · split at h <;> exact readMagnitude_distinct h

theorem map_eq_ok {ε α β : Type} {f : α → β} {r : Except ε α} {b : β} (h : r.map f = .ok b) :
    ∃ a, r = .ok a ∧ f a = b := by
  cases r with
  | error => cases h
  | ok a => exact ⟨a, rfl, Except.ok.inj h⟩

/-- What is read on some fuel has distinct names if what was read before it has. -/
structure ReadsDistinct (fuel : Nat) : Prop where
  value {text rest : List Char} {d : Datum} : readValue fuel text = .ok (d, rest) → d.Distinct
  members {done fields : List (String × Datum)} {text rest : List Char} :
    (Datum.dict done).Distinct → readMembers fuel done text = .ok (fields, rest) →
      (Datum.dict fields).Distinct
  items {text rest : List Char} {items : List Datum} :
    readItems fuel text = .ok (items, rest) → (Datum.list items).Distinct

section Step

variable {fuel : Nat} {text rest : List Char}

theorem ReadsDistinct.value_succ (ih : ReadsDistinct fuel) {d : Datum}
    (h : readValue (fuel + 1) text = .ok (d, rest)) : d.Distinct := by
  rcases text with _ | ⟨c, text⟩
  · simp [readValue] at h
  simp only [readValue] at h
  split_ifs at h
  · obtain ⟨_, -, he⟩ := map_eq_ok h
    cases he
    exact .plain _
  · split at h
    · cases h
      exact distinct_nil
    · obtain ⟨_, hr, he⟩ := map_eq_ok h
      cases he
      exact ih.members distinct_nil hr
  · split at h
    · cases h
      exact .list fun _ hm => absurd hm List.not_mem_nil
    · obtain ⟨_, hr, he⟩ := map_eq_ok h
      cases he
      exact ih.items hr
  · exact readScalar_distinct h

theorem ReadsDistinct.members_succ (ih : ReadsDistinct fuel) {done fields : List (String × Datum)}
    (hd : (Datum.dict done).Distinct)
    (h : readMembers (fuel + 1) done text = .ok (fields, rest)) :
    (Datum.dict fields).Distinct := by
  simp only [readMembers] at h
  split at h
  · split at h
    · cases h
    split at h
    · split at h
      · cases h
      · next hv =>
        have hput (name : String) := hd.put (ih.value hv) name
        split at h
        · cases h
          exact hput _
        · exact ih.members (hput _) h
        · cases h
    · cases h
  · cases h

theorem ReadsDistinct.items_succ (ih : ReadsDistinct fuel) {items : List Datum}
    (h : readItems (fuel + 1) text = .ok (items, rest)) : (Datum.list items).Distinct := by
  simp only [readItems] at h
  split at h
  · cases h
  next d _ hv =>
  have hd : d.Distinct := ih.value hv
  split at h
  · cases h
    exact .list (List.forall_mem_singleton.2 hd)
  · obtain ⟨_, hr, he⟩ := map_eq_ok h
    cases he
    exact .list (List.forall_mem_cons.2 ⟨hd, (ih.items hr).items⟩)
  · cases h

end Step

theorem readsDistinct (fuel : Nat) : ReadsDistinct fuel := by
  induction fuel with
  | zero =>
    constructor
    · intro text _ _ h
      cases text <;> simp [readValue] at h
    · intro _ _ _ _ _ h
      simp [readMembers] at h
    · intro _ _ _ h
      simp [readItems] at h
  | succ fuel ih => exact ⟨ih.value_succ, ih.members_succ, ih.items_succ⟩

theorem read_distinct {text : String} {d : Datum} (h : read text = .ok d) : d.Distinct := by
  unfold read readAll at h
  split at h
  · cases h
  · split at h
    · cases h
    · next hv =>
      split at h <;> cases h
      exact (readsDistinct _).value hv

end JsonText

namespace Intent

variable {object : Record} {fields : List (String × Datum)} {entities : Context}

/-- An object that is understood as an intent: what it has as entities is a mapping, and its
confidence is no integer beyond all floating-point numbers. -/
structure Understood (object : Record) : Prop where
  entities : (object.column "entities").isTruthy = true →
    ∃ fields, object.column "entities" = .dict fields
  confidence (i : Int) : object.get? "confidence" = some (.int i) → Binary64.ofInt? i ≠ none

theorem readEntities_isOk_iff {d : Datum} :
    (∃ entities, readEntities d = .ok entities) ↔
      (d.isTruthy = true → ∃ fields, d = .dict fields) := by
  unfold readEntities
  by_cases ht : d.isTruthy = true
  · simp only [ht, Bool.not_true, Bool.false_eq_true, if_false, true_imp_iff]
    constructor
    · rintro ⟨entities, h⟩
      split at h
      · exact ⟨_, rfl⟩
      · cases h
    · rintro ⟨fields, rfl⟩
      exact ⟨_, rfl⟩
  · rw [Bool.not_eq_true] at ht
    simp [ht]

theorem readConfidence_isOk_iff {d? : Option Datum} :
    (∃ confidence, readConfidence d? = .ok confidence) ↔
      ∀ i, d? = some (.int i) → Binary64.ofInt? i ≠ none := by
  unfold readConfidence Datum.int
  split
  · simp
  · simp
  · rename_i i
    rcases hx : Binary64.ofInt? i with _ | x
    · simp [hx]
    · simp [hx]
  · simp
  · simp
  · rename_i d _ hi _ _
    refine iff_of_true ⟨_, rfl⟩ fun i he => ?_
    exact absurd (Option.some.inj he) (hi i)

theorem ofFields_isOk_iff : (∃ intent, ofFields object = .ok intent) ↔ Understood object := by
  constructor
  · rintro ⟨intent, h⟩
    obtain ⟨entities, confidence, he, hc, -⟩ := ofFields_eq_ok_iff.1 h
    exact ⟨readEntities_isOk_iff.1 ⟨entities, he⟩, readConfidence_isOk_iff.1 ⟨confidence, hc⟩⟩
  · rintro ⟨he, hc⟩
    obtain ⟨entities, he⟩ := readEntities_isOk_iff.2 he
    obtain ⟨confidence, hc⟩ := readConfidence_isOk_iff.2 hc
    exact ⟨_, ofFields_eq_ok_iff.2 ⟨entities, confidence, he, hc, rfl⟩⟩

theorem mem_scalars_iff {name : String} {v : Value} :
    (name, v) ∈ scalars fields ↔ ∃ d, (name, d) ∈ fields ∧ d.toValue = .ok v := by
  refine ⟨mem_scalars, ?_⟩
  rintro ⟨d, hm, hv⟩
  induction fields with
  | nil => cases hm
  | cons e rest ih =>
    unfold scalars
    rcases List.mem_cons.1 hm with rfl | hm
    · rw [hv]
      exact List.mem_cons_self
    · split
      · exact List.mem_cons_of_mem _ (ih hm)
      · exact ih hm

theorem names_scalars_sublist : ((scalars fields).map Prod.fst).Sublist (fields.map Prod.fst) := by
  induction fields with
  | nil => exact .slnil
  | cons e rest ih =>
    unfold scalars
    rcases e.2.toValue with f | v
    · exact ih.cons _
    · exact ih.cons_cons _

/-- Of entities with distinct names those that convert to values are kept, and no others. -/
theorem get?_of_readEntities {d : Datum} (hd : d.Distinct) (h : readEntities d = .ok entities)
    (name : String) (v : Value) : entities.get? name = some v ↔
      ∃ fields d', d = .dict fields ∧ (name, d') ∈ fields ∧ d'.toValue = .ok v := by
  unfold readEntities at h
  split_ifs at h with ht
  · cases h
    rw [OrderedMap.get?_empty]
    refine iff_of_false (Option.some_ne_none v).symm ?_
    rintro ⟨fields, d', rfl, hm, -⟩
    rw [Datum.isTruthy, Bool.not_not, List.isEmpty_iff] at ht
    exact List.not_mem_nil (ht ▸ hm)
  · split at h
    · next fields =>
      cases h
      have hn : ((scalars fields).map Prod.fst).Nodup := hd.names.sublist names_scalars_sublist
      have he : (OrderedMap.ofEntries (scalars fields)).entries = scalars fields :=
        OrderedMap.entries_insertAll .empty _ hn
      rw [OrderedMap.get?_eq_some_iff, he, mem_scalars_iff]
      simp
    · cases h

end Intent

/-- The entities are those that the reply states: the reply is an object that is understood, which
has under their names data that convert to their values. -/
def ChatReply.Tells (reply : ChatReply) (entities : Context) : Prop :=
  ∀ name v, entities.get? name = some v ↔
    ∃ object, reply.object? = some object ∧ Intent.Understood object ∧
      ∃ fields d, object.column "entities" = .dict fields ∧ (name, d) ∈ fields ∧
        d.toValue = .ok v

namespace Recogniser

theorem distinct_of_object? {reply : ChatReply} {object : Record}
    (h : reply.object? = some object) (name : String) : (object.column name).Distinct := by
  unfold ChatReply.object? at h
  split at h
  · split at h
    · next fields hr =>
      cases h
      cases JsonText.read_distinct hr with
      | dict names all =>
        have he : (OrderedMap.ofEntries fields).entries = fields :=
          OrderedMap.entries_insertAll .empty _ names
        unfold Record.column
        rcases hg : (OrderedMap.ofEntries fields).get? name with _ | d
        · exact .plain .null
        · rw [OrderedMap.get?_eq_some_iff, he] at hg
          exact all _ hg
    · cases h
  · cases h

/-- A reply that is no object that is understood states nothing. -/
theorem readReply_of_not_understood {reply : ChatReply}
    (h : ∀ object, reply.object? = some object → ¬ Intent.Understood object) :
    readReply reply = .unknown := by
  rcases ho : reply.object? with _ | object
  · exact readReply_of_none ho
  · rw [readReply_of_some ho]
    rcases hi : Intent.ofFields object with f | intent
    · rfl
    · exact absurd (Intent.ofFields_isOk_iff.1 ⟨intent, hi⟩) (h object ho)

/-- Exactly the entities that a reply states are kept. -/
theorem readReply_tells (reply : ChatReply) : reply.Tells (readReply reply).entities := by
  intro name v
  by_cases hu : ∃ object, reply.object? = some object ∧ Intent.Understood object
  · obtain ⟨object, ho, hu⟩ := hu
    obtain ⟨intent, hi⟩ := Intent.ofFields_isOk_iff.2 hu
    obtain ⟨entities, confidence, he, -, rfl⟩ := Intent.ofFields_eq_ok_iff.1 hi
    rw [readReply_of_some ho, hi]
    refine (Intent.get?_of_readEntities (distinct_of_object? ho _) he name v).trans ?_
    simp [ho, hu]
  · have hn : ∀ object, reply.object? = some object → ¬ Intent.Understood object :=
      fun object ho h => hu ⟨object, ho, h⟩
    rw [readReply_of_not_understood hn]
    refine iff_of_false (Option.some_ne_none v).symm ?_
    rintro ⟨object, ho, h, -⟩
    exact hn object ho h

example :
    (readReply (.content (some
      "\x7b\"entities\": \x7b\"order\": 7, \"tags\": [], \"order\": 8\x7d\x7d"))).entities =
        .ofEntries [("order", .int 8)] := by
  decide +kernel

end Recogniser

end Playbook
