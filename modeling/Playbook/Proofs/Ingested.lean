import Playbook.Proofs.StatedEdges

/-!
# What is stated can be noted

A number is read only if it can be written (`Text.isSome_printInteger?_of_read`), so the value of a
term can be written (`Turtle.Term.isWritable_value`), and so can all that statements say of
problems, steps and relations. Nothing of it stops the writing (`Ingest.canNote`).
-/

namespace Playbook

namespace Text

theorem lt_of_digit? {c : Char} {d : Nat} (h : digit? c = some d) : d < 10 := by
  obtain ⟨z, hz, rfl⟩ := Option.map_eq_some_iff.1 h
  have hrange := List.find?_some hz
  simp only [Bool.and_eq_true, decide_eq_true_eq] at hrange
  omega

theorem digitRun_lt (inside : Bool) (text : List Char) :
    ∀ d ∈ (digitRun inside text).1, d < 10 := by
  induction text generalizing inside with
  | nil => simp [digitRun]
  | cons c rest ih =>
    unfold digitRun
    rcases hc : digit? c with _ | d
    · dsimp only
      split_ifs
      · exact ih false
      · simp
    · exact List.forall_mem_cons.2 ⟨lt_of_digit? hc, ih true⟩

theorem ofDigits_lt_of_length_le {values : List Nat} (h : ∀ d ∈ values, d < 10) {limit : Nat}
    (hl : values.length ≤ limit) : ofDigits 10 values < Nat.pow 10 limit :=
  lt_of_lt_of_le (ofDigits_lt_pow h) (Nat.pow_le_pow_right (by decide) hl)

theorem isSome_printInteger? {i : Int} {values : List Nat} (h : ∀ d ∈ values, d < 10)
    (hl : values.length ≤ digitLimit) (hi : i.natAbs = ofDigits 10 values) :
    (printInteger? i).isSome = true := by
  rw [printInteger?, hi, if_pos (ofDigits_lt_of_length_le h hl)]
  rfl

/-- A number that is read has few enough digits to be written. -/
theorem isSome_printInteger?_of_read {text : String} {i : Int} (h : readInteger? text = some i) :
    (printInteger? i).isSome = true := by
  unfold readInteger? bareInteger? at h
  rcases hs : signed (stripBy isPadding text.toList) with ⟨negative, rest⟩
  have hlt := digitRun_lt false rest
  simp only [hs] at h
  split at h
  · cases h
  · cases h
  · next values _ hr =>
    rw [hr] at hlt
    split_ifs at h with hl hneg <;> cases h
    · exact isSome_printInteger? hlt hl (Int.natAbs_neg _)
    · exact isSome_printInteger? hlt hl rfl

end Text

namespace OrderedMap

variable {κ α : Type} [DecidableEq κ] {p : κ → α → Prop} {entries : List (κ × α)}

theorem Every.insertAll {m : OrderedMap κ α} (hm : m.Every p) (h : ∀ e ∈ entries, p e.1 e.2) :
    (m.insertAll entries).Every p := by
  induction entries generalizing m with
  | nil => exact hm
  | cons e rest ih =>
    obtain ⟨he, hrest⟩ := List.forall_mem_cons.1 h
    exact ih (hm.insert he) hrest

theorem every_ofEntries (h : ∀ e ∈ entries, p e.1 e.2) : (ofEntries entries).Every p :=
  (every_empty p).insertAll h

end OrderedMap

namespace Datum

theorem isWritable_orElse {d other : Datum} (hd : d.isWritable = true)
    (ho : other.isWritable = true) : (d.orElse other).isWritable = true := by
  unfold Datum.orElse
  split_ifs
  · exact hd
  · exact ho

theorem isWritable_getD {d? : Option Datum} {other : Datum}
    (hd : ∀ d, d? = some d → d.isWritable = true) (ho : other.isWritable = true) :
    (d?.getD other).isWritable = true := by
  cases d? with
  | none => exact ho
  | some d => exact hd d rfl

end Datum

namespace Turtle

theorem isWritable_of_typedValue? {text type : String} {d : Datum}
    (h : typedValue? text type = some d) : d.isWritable = true := by
  unfold typedValue? at h
  split_ifs at h
  · obtain ⟨i, hi, rfl⟩ := Option.map_eq_some_iff.1 h
    exact Datum.isWritable_int (Text.isSome_printInteger?_of_read hi)
  · obtain ⟨x, -, rfl⟩ := Option.map_eq_some_iff.1 h
    rfl
  · obtain ⟨d, -, rfl⟩ := Option.map_eq_some_iff.1 h
    rfl
  · cases h
    rfl
  · obtain ⟨d, -, rfl⟩ := Option.map_eq_some_iff.1 h
    rfl
  · obtain ⟨t, -, rfl⟩ := Option.map_eq_some_iff.1 h
    rfl

theorem Term.isWritable_value (term : Term) : term.value.isWritable = true := by
  cases term with
  | resource | blank => rfl
  | literal text type =>
    cases type with
    | none => rfl
    | some type => exact Datum.isWritable_getD (fun _ => isWritable_of_typedValue?) rfl

end Turtle

namespace Ingest

open Turtle Builder

variable (triples : Triples)

/-- All that is stated of a subject can be written. -/
theorem isWritable_property {subject : Term} {name : String} {d : Datum}
    (h : (properties triples subject).get? name = some d) : d.isWritable = true := by
  have hall : (properties triples subject).Every fun _ d => d.isWritable = true := by
    refine OrderedMap.every_ofEntries fun e he => ?_
    obtain ⟨⟨predicate, object⟩, -, he⟩ := List.mem_filterMap.1 he
    dsimp only at he
    split_ifs at he
    cases he
    exact object.isWritable_value
  exact hall.get? h

theorem isWritable_column (subject : Term) (name : String) :
    ((properties triples subject).column name).isWritable = true :=
  Datum.isWritable_getD (fun _ h => isWritable_property triples h) rfl

theorem isWritable_problem (subject : Term) :
    (problem triples subject).id.isWritable = true ∧
      (problem triples subject).type.isWritable = true :=
  ⟨Datum.isWritable_orElse (isWritable_column triples subject _) rfl,
    Datum.isWritable_getD (fun _ h => isWritable_property triples h) rfl⟩

/-- Only problems that are stated are found. -/
theorem every_problem : (problems triples).Every fun subject draft =>
    draft = problem triples subject :=
  OrderedMap.every_ofEntries (List.forall_mem_map.2 fun _ _ => rfl)

theorem every_step (problems : Problems) : (steps triples problems).Every fun subject draft =>
    draft = step triples problems subject :=
  OrderedMap.every_ofEntries (List.forall_mem_map.2 fun _ _ => rfl)

theorem isWritable_step (subject : Term) :
    (step triples (problems triples) subject).problem.isWritable = true ∧
      (step triples (problems triples) subject).id.isWritable = true ∧
      (step triples (problems triples) subject).operation.isWritable = true := by
  refine ⟨Datum.isWritable_getD (fun _ h => isWritable_property triples h) ?_,
    isWritable_column triples subject _,
    Datum.isWritable_getD (fun _ h => isWritable_property triples h) rfl⟩
  refine Datum.isWritable_getD (fun d h => ?_) rfl
  obtain ⟨draft, hdraft, rfl⟩ := Option.map_eq_some_iff.1 h
  obtain ⟨object, -, hget⟩ := Option.bind_eq_some_iff.1 hdraft
  rw [(every_problem triples).get? hget]
  exact (isWritable_problem triples object).1

/-- The relations that are stated lead between steps that are stated. -/
theorem notable_relation {draft : RelationDraft}
    (h : draft ∈ relations triples (steps triples (problems triples))) :
    Notable draft.fields := by
  obtain ⟨_, hs⟩ := relations_stated triples h
  have hstep {object : Term} {target : StepDraft}
      (ht : (steps triples (problems triples)).get? object = some target) :
      target.problem.isWritable = true ∧ target.id.isWritable = true := by
    rw [(every_step triples (problems triples)).get? ht]
    exact (isWritable_step triples object).imp_right And.left
  cases hs with
  | first _ ht => simp [Notable, RelationDraft.fields, relationTo, hstep ht]
  | next _ hs ht => simp [Notable, RelationDraft.fields, relationTo, hstep hs, hstep ht]
  | transition _ _ _ hs ht =>
    simp [Notable, RelationDraft.fields, relationTo, hstep hs, hstep ht]

end Ingest

namespace Builder

theorem notable_relationNotes {draft : RelationDraft} (h : Notable draft.fields) :
    Notable (relationNotes draft) := by
  have hall : draft.problem.isWritable = true ∧ draft.target.isWritable = true ∧
      draft.source.isWritable = true := by
    simp only [Notable, RelationDraft.fields, List.forall_mem_cons] at h
    exact ⟨h.1, h.2.1, h.2.2.2.1⟩
  unfold relationNotes
  split_ifs
  · unfold endsOf
    split_ifs <;> simp [Notable, hall]
  · exact h

end Builder

/-- All that statements say can be noted where it is written. -/
theorem Ingest.canNote (triples : Turtle.Triples) :
    Builder.CanNote (problems triples).values (steps triples (problems triples)).values
      (relations triples (steps triples (problems triples))) where
  problems draft hd _ := by
    obtain ⟨⟨subject, _⟩, he, rfl⟩ := List.mem_map.1 hd
    rw [every_problem triples _ he]
    obtain ⟨hid, htype⟩ := isWritable_problem triples subject
    simp [Builder.Notable, Builder.problemNotes, hid, htype]
  steps draft hd := by
    obtain ⟨⟨subject, _⟩, he, rfl⟩ := List.mem_map.1 hd
    rw [every_step triples (Ingest.problems triples) _ he]
    obtain ⟨hproblem, hid, hoperation⟩ := isWritable_step triples subject
    unfold Builder.stepNotes
    split_ifs <;> simp [Builder.Notable, hproblem, hid, hoperation]
  relations draft hd := Builder.notable_relationNotes (notable_relation triples hd)

end Playbook
