import Playbook.Graph.Remote
import Playbook.Proofs.Decimals

/-!
# Readings of a playbook in a database

Three of the questions have answers that are kept, all in one place. No two readings share a name
there (`Reading.name_inj`): the kind of question shows at the front, and the number of a step has no
underscore, so that it ends at the last one whatever the problem is called.
-/

namespace Playbook

namespace Text

theorem repr_inj {n m : Nat} (h : n.repr = m.repr) : n = m := by
  have hd : Nat.toDigits 10 n = Nat.toDigits 10 m := String.ofList_injective h
  rw [← ofDigits_toDigits n, ← ofDigits_toDigits m, hd]

theorem ne_of_mem_repr {n : Nat} {c d : Char} (hc : c ∈ n.repr.toList) (hd : d.isDigit = false) :
    c ≠ d := by
  rintro rfl
  rw [Nat.repr, String.toList_ofList] at hc
  rw [allDigits_toDigits n c hc] at hd
  cases hd

theorem integerText_inj {i j : Int} (h : integerText i = integerText j) : i = j := by
  have hm (n m : Nat) : n.repr ≠ "-" ++ m.repr := by
    intro he
    have hc : '-' ∈ n.repr.toList := by
      rw [he]
      simp
    exact ne_of_mem_repr hc (by decide) rfl
  cases i with
  | ofNat n =>
    cases j with
    | ofNat m => rw [repr_inj h]
    | negSucc m => exact absurd h (hm _ _)
  | negSucc n =>
    cases j with
    | ofNat m => exact absurd h.symm (hm _ _)
    | negSucc m =>
      have hr : (n + 1).repr = (m + 1).repr := (String.append_right_inj "-").1 h
      rw [Nat.succ.inj (repr_inj hr)]

theorem underscore_notMem_integerText (i : Int) : '_' ∉ (integerText i).toList := by
  intro hc
  unfold integerText at hc
  split at hc
  · exact ne_of_mem_repr hc (by decide) rfl
  · rw [String.toList_append, List.mem_append] at hc
    rcases hc with hc | hc
    · exact absurd hc (by decide)
    · exact ne_of_mem_repr hc (by decide) rfl

/-- Texts around a separator that does not occur after it. -/
theorem append_separator_inj {left left' right right' : List Char} {c : Char}
    (hc : c ∉ right) (hc' : c ∉ right') (h : left ++ c :: right = left' ++ c :: right') :
    left = left' ∧ right = right' := by
  obtain ⟨between, rfl, hb⟩ | ⟨between, rfl, hb⟩ := List.append_eq_append_iff.1 h
  · cases between with
    | nil => simpa using hb
    | cons d between =>
      have hr : right = between ++ c :: right' := (List.cons.inj hb).2
      exact absurd (by simp [hr]) hc
  · cases between with
    | nil => simpa using hb.symm
    | cons d between =>
      have hr : right' = between ++ c :: right := (List.cons.inj hb).2
      exact absurd (by simp [hr]) hc'

end Text

/-- A question whose answer is kept. -/
inductive Reading where
  | firstStep (problem : String)
  | candidates (problem : String) (step : Int)
  | problemFor (type : String)
deriving DecidableEq

/-- What is found by a reading. -/
inductive Finding where
  | step (step : Step)
  | candidates (candidates : List Candidate)
  | problem (id : String)
deriving DecidableEq

namespace Reading

/-- The name under which the answer is kept, if its number can be written. -/
def name : Reading → String
  | firstStep problem => RemoteGraph.firstStepName (some problem)
  | candidates problem step => s!"next_{problem}_{Text.integerText step}"
  | problemFor type => RemoteGraph.problemName (some type)

/-- The number of the reading, if it has one, can be written. -/
def Writable : Reading → Prop
  | candidates _ step => (Text.printInteger? step).isSome = true
  | firstStep _ | problemFor _ => True

instance (r : Reading) : Decidable r.Writable := by
  cases r <;> unfold Writable <;> infer_instance

def statement : Reading → Statement
  | firstStep _ => .firstStep
  | candidates .. => .candidates
  | problemFor _ => .problemByType

def parameters : Reading → List (String × Datum)
  | firstStep problem => [("problemId", .ofText? (some problem))]
  | candidates problem step =>
    [("problemId", .ofText? (some problem)), ("stepId", .ofInt? (some step))]
  | problemFor type => [("problemType", .ofText? (some type))]

/-- What a reading finds in the records that answer it. -/
def findIn : Reading → List Record → Except Fault Finding
  | firstStep problem, rows => (RemoteGraph.stepIn (some problem) rows).map .step
  | candidates .., rows => (rows.mapM RemoteGraph.candidateOf).map .candidates
  | problemFor type, rows => (RemoteGraph.idIn (some type) rows).map .problem

/-- What a reading finds at a source. -/
def ask {σ : Type} (source : GraphSource σ) : Reading → Attempt σ Finding
  | firstStep problem => fun s =>
    let (r, s) := source.firstStep (some problem) s
    (r.map .step, s)
  | candidates problem step => fun s =>
    let (r, s) := source.candidates (some problem) (some step) s
    (r.map .candidates, s)
  | problemFor type => fun s =>
    let (r, s) := source.problemFor (some type) s
    (r.map .problem, s)

theorem not_writable_leastUnprinted (problem : String) :
    ¬ (candidates problem Text.leastUnprinted).Writable := by
  rw [Writable, Text.printInteger?_leastUnprinted]
  simp

section Faults

/-- A failure, if any, is not one of the database. -/
def NoOutage {α : Type} (r : Except Fault α) : Prop :=
  ∀ f, r = .error f → f.kind ≠ .storageFailed

variable {α β : Type}

theorem noOutage_ok (a : α) : NoOutage (.ok a) := fun _ h => by cases h

theorem noOutage_error {f : Fault} (h : f.kind ≠ .storageFailed) :
    NoOutage (.error f : Except Fault α) := fun g hg => by
  cases hg
  exact h

theorem NoOutage.bind {r : Except Fault α} {next : α → Except Fault β} (hr : NoOutage r)
    (hn : ∀ a, NoOutage (next a)) : NoOutage (r >>= next) := by
  cases r with
  | error f => exact noOutage_error (hr f rfl)
  | ok a => exact hn a

theorem NoOutage.map {r : Except Fault α} (hr : NoOutage r) (f : α → β) : NoOutage (r.map f) := by
  cases r with
  | error g => exact noOutage_error (hr g rfl)
  | ok a => exact noOutage_ok _

theorem noOutage_mapM {f : α → Except Fault β} (hf : ∀ a, NoOutage (f a)) (l : List α) :
    NoOutage (l.mapM f) := by
  induction l with
  | nil => exact noOutage_ok []
  | cons a l ih =>
    rw [List.mapM_cons]
    exact (hf a).bind fun b => ih.bind fun bs => noOutage_ok (b :: bs)

theorem noOutage_toText? (d : Datum) : NoOutage d.toText? := by
  unfold Datum.toText?
  split
  · exact noOutage_ok _
  · exact noOutage_ok _
  · exact noOutage_error (by simp [Fault.kind])

theorem noOutage_toInt? (d : Datum) : NoOutage d.toInt? := by
  unfold Datum.toInt?
  split
  · exact noOutage_ok _
  · exact noOutage_ok _
  · exact noOutage_error (by simp [Fault.kind])

theorem noOutage_resolve (draft : StepDraft) : NoOutage draft.resolve :=
  (noOutage_toText? _).bind fun _ => (noOutage_toInt? _).bind fun _ =>
    (noOutage_toText? _).bind fun _ => (noOutage_toText? _).bind fun _ =>
    (noOutage_toText? _).bind fun _ => (noOutage_toText? _).bind fun _ =>
    (noOutage_toText? _).bind fun _ => (noOutage_toText? _).bind fun _ => noOutage_ok _

theorem noOutage_needed (row : Record) (name : String) :
    NoOutage (RelationDraft.needed row name) := by
  unfold RelationDraft.needed
  split
  · exact noOutage_ok _
  · exact noOutage_error (by simp [Fault.kind])

theorem noOutage_candidateOf (row : Record) : NoOutage (RemoteGraph.candidateOf row) :=
  (noOutage_needed _ _).bind fun _ => (noOutage_toText? _).bind fun _ =>
    (noOutage_toText? _).bind fun _ => (noOutage_resolve _).bind fun _ => noOutage_ok _

theorem noOutage_findIn (r : Reading) (rows : List Record) : NoOutage (r.findIn rows) := by
  cases r with
  | firstStep problem =>
    refine NoOutage.map ?_ _
    cases rows with
    | nil => exact noOutage_error (by simp [Fault.kind])
    | cons row rows => exact noOutage_resolve _
  | candidates problem step => exact (noOutage_mapM noOutage_candidateOf rows).map _
  | problemFor type =>
    refine NoOutage.map ?_ _
    cases rows with
    | nil => exact noOutage_error (by simp [Fault.kind])
    | cons row rows =>
      simp only [RemoteGraph.idIn]
      split
      · exact noOutage_ok _
      · exact noOutage_error (by simp [Fault.kind])

end Faults

section Name

variable {problem : String}

theorem toList_firstStepName :
    (firstStep problem).name.toList = "first_".toList ++ problem.toList := String.toList_append

theorem toList_problemName (type : String) :
    (problemFor type).name.toList = "intent_".toList ++ type.toList :=
  String.toList_append

theorem toList_candidatesName (step : Int) : (candidates problem step).name.toList =
    "next_".toList ++ (problem.toList ++ '_' :: (Text.integerText step).toList) := by
  change ("next_" ++ problem ++ "_" ++ Text.integerText step).toList = _
  simp only [String.toList_append, List.append_assoc]
  rfl

theorem name_inj {r r' : Reading} (h : r.name = r'.name) : r = r' := by
  have hl : r.name.toList = r'.name.toList := by rw [h]
  cases r with
  | firstStep problem =>
    cases r' with
    | firstStep problem' =>
      rw [toList_firstStepName, toList_firstStepName] at hl
      rw [String.toList_injective (List.append_cancel_left hl)]
    | candidates => simp [toList_firstStepName, toList_candidatesName] at hl
    | problemFor => simp [toList_firstStepName, toList_problemName] at hl
  | candidates problem step =>
    cases r' with
    | firstStep => simp [toList_firstStepName, toList_candidatesName] at hl
    | candidates problem' step' =>
      rw [toList_candidatesName, toList_candidatesName] at hl
      obtain ⟨hp, hs⟩ := Text.append_separator_inj (Text.underscore_notMem_integerText step)
        (Text.underscore_notMem_integerText step') (List.append_cancel_left hl)
      rw [String.toList_injective hp, Text.integerText_inj (String.toList_injective hs)]
    | problemFor => simp [toList_candidatesName, toList_problemName] at hl
  | problemFor type =>
    cases r' with
    | firstStep => simp [toList_firstStepName, toList_problemName] at hl
    | candidates => simp [toList_candidatesName, toList_problemName] at hl
    | problemFor type' =>
      rw [toList_problemName, toList_problemName] at hl
      rw [String.toList_injective (List.append_cancel_left hl)]

theorem eq_of_statement {r r' : Reading} (hs : r.statement = r'.statement)
    (hp : r.parameters = r'.parameters) : r = r' := by
  cases r with
  | firstStep problem =>
    cases r' with
    | firstStep problem' => cases hp; rfl
    | candidates | problemFor => cases hs
  | candidates problem step =>
    cases r' with
    | candidates problem' step' => cases hp; rfl
    | firstStep | problemFor => cases hs
  | problemFor type =>
    cases r' with
    | problemFor type' => cases hp; rfl
    | firstStep | candidates => cases hs

end Name

section Ask

variable {θ δ : Type} [Sub θ] [LT θ] [DecidableLT θ] (graph : RemoteGraph θ δ)

theorem read_map {α β : Type} (name : String) (statement : Statement)
    (parameters : List (String × Datum)) (meaning : List Record → Except Fault α) (f : α → β)
    (s : RemoteState θ δ) :
    graph.read name statement parameters (fun rows => (meaning rows).map f) s =
      ((graph.read name statement parameters meaning s).1.map f,
        (graph.read name statement parameters meaning s).2) := by
  unfold RemoteGraph.read
  rcases graph.answer name statement parameters s with ⟨_ | rows, s'⟩ <;> rfl

theorem candidatesName_of_writable {problem : String} {step : Int}
    (h : (candidates problem step).Writable) :
    RemoteGraph.candidatesName (some problem) (some step) =
      .ok (candidates problem step).name := by
  rw [RemoteGraph.candidatesName, shownNumber_of_isSome h]
  rfl

theorem candidatesName_of_not_writable {problem : String} {step : Int}
    (h : ¬ (candidates problem step).Writable) :
    RemoteGraph.candidatesName (some problem) (some step) = .error .integerTooLong := by
  rw [RemoteGraph.candidatesName, shownNumber_of_not_isSome h]
  rfl

theorem ask_source {r : Reading} (h : r.Writable) :
    r.ask graph.source = graph.read r.name r.statement r.parameters r.findIn := by
  funext s
  cases r with
  | firstStep problem => exact (read_map graph _ _ _ _ _ s).symm
  | candidates problem step =>
    simp only [ask, RemoteGraph.source, RemoteGraph.candidates, candidatesName_of_writable h]
    exact (read_map graph _ _ _ _ _ s).symm
  | problemFor type => exact (read_map graph _ _ _ _ _ s).symm

/-- A reading whose number cannot be written reads nothing. -/
theorem ask_of_not_writable {r : Reading} (h : ¬ r.Writable) (s : RemoteState θ δ) :
    r.ask graph.source s = (.error .integerTooLong, s) := by
  cases r with
  | candidates problem step =>
    simp only [ask, RemoteGraph.source, RemoteGraph.candidates, candidatesName_of_not_writable h]
    rfl
  | firstStep | problemFor => exact absurd trivial h

end Ask

end Reading

namespace RemoteGraph

section Ask

variable {θ δ : Type} (graph : RemoteGraph θ δ)

/-- What a reading finds in what the database answers. A failure is a fault only in a strict
store. -/
def findingOf (r : Reading) : Except Fault (List Record) → Except Fault Finding
  | .ok rows => r.findIn rows
  | .error f => if graph.strict then .error (.storageFailed f.message) else r.findIn []

/-- Only a failure of the database is taken for one, and only in a strict store. -/
theorem exists_outage_iff (r : Reading) (told : Except Fault (List Record)) :
    (∃ f, graph.findingOf r told = .error f ∧ f.kind = .storageFailed) ↔
      graph.strict = true ∧ ∃ f, told = .error f := by
  cases told with
  | ok rows =>
    constructor
    · rintro ⟨f, hf, hk⟩
      exact absurd hk (r.noOutage_findIn rows f hf)
    · rintro ⟨-, f, hf⟩
      cases hf
  | error f =>
    cases hs : graph.strict with
    | true =>
      rw [findingOf, hs, if_pos rfl]
      exact ⟨fun _ => ⟨rfl, f, rfl⟩, fun _ => ⟨_, rfl, rfl⟩⟩
    | false =>
      rw [findingOf, hs, if_neg Bool.false_ne_true]
      constructor
      · rintro ⟨g, hg, hk⟩
        exact absurd hk (r.noOutage_findIn [] g hg)
      · rintro ⟨h, -⟩
        cases h

/-- The answers that are kept when another one has come. -/
def keeping (r : Reading) (born : θ) (kept : OrderedMap String (θ × List Record)) :
    Except Fault (List Record) → OrderedMap String (θ × List Record)
  | .ok (row :: rows) => kept.insert r.name (born, row :: rows)
  | .ok [] | .error _ => kept

variable [Sub θ] [LT θ] [DecidableLT θ] {r : Reading} (hr : r.Writable) {s : RemoteState θ δ}
include hr

theorem ask_of_kept {rows : List Record} (h : graph.keptAnswer r.name s = some rows) :
    r.ask graph.source s = (r.findIn rows, s) := by
  rw [Reading.ask_source graph hr, read, answer, h]

theorem ask_of_not_kept {told : Except Fault (List Record)} {outside : δ}
    (h : graph.keptAnswer r.name s = none)
    (ha : graph.records.ask graph.database r.statement r.parameters s.outside = (told, outside)) :
    r.ask graph.source s =
      (graph.findingOf r told,
        ⟨outside, keeping r (graph.records.time outside) s.kept told⟩) := by
  rw [Reading.ask_source graph hr, read, answer, h]
  simp only [RemoteGraph.ask, ha]
  rcases told with f | _ | ⟨row, rows⟩
  · cases hs : graph.strict
    · simp [findingOf, hs, keeping]
    · simp [findingOf, hs, keeping]
  · simp [findingOf, keeping]
  · simp [findingOf, keeping]

omit hr in
theorem keptAnswer_eq_some_iff {name : String} {rows : List Record} :
    graph.keptAnswer name s = some rows ↔
      ∃ born, s.kept.get? name = some (born, rows) ∧
        graph.records.time s.outside - born < graph.lifetime := by
  unfold keptAnswer
  rcases s.kept.get? name with _ | ⟨born, rows'⟩
  · simp
  · simp only [Option.ite_none_right_eq_some, Option.some.injEq, Prod.mk.injEq]
    constructor
    · rintro ⟨ht, rfl⟩
      exact ⟨born, ⟨rfl, rfl⟩, ht⟩
    · rintro ⟨_, ⟨rfl, rfl⟩, ht⟩
      exact ⟨ht, rfl⟩

end Ask

end RemoteGraph

end Playbook
