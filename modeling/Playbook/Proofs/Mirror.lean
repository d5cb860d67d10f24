import Playbook.Proofs.Described
import Playbook.Proofs.Search

/-!
# Playbooks that are read alike

A source mirrors a local graph if it answers readings and lists problems as the graph does, in all
states that it comes to. Whoever reads only through a source cannot tell the two apart: walks,
problems looked up and audits come out the same (`consultAll_mirrored`). A database that tells the
records of the graph makes such a source, whether its answers are kept or asked for
(`mirrors_source`). A step whose number cannot be written is not asked for, so the steps of the
graph have to be numbered with numbers that can.
-/

namespace Playbook

variable {σ τ : Type}

/-- The step has a number, and one that can be written. -/
def Step.Numbered (step : Step) : Prop :=
  ∃ id, step.id = some id ∧ (Text.printInteger? id).isSome = true

theorem LocalGraph.Definite.numbered {graph : LocalGraph} (hg : graph.Definite)
    (hw : graph.Writable) {step : Step} (hs : graph.Holds step) : step.Numbered := by
  obtain ⟨id, hid⟩ := (hg.steps step hs).1
  refine ⟨id, hid, ?_⟩
  by_contra hp
  have hstep : step.Writable := hw step hs
  rw [Step.Writable, hid, shownNumber_of_not_isSome hp] at hstep
  cases hstep

/-- A source whose state changes on its own before each question. -/
def GraphSource.amid (source : GraphSource σ) (change : σ → σ) : GraphSource σ where
  firstStep problem s := source.firstStep problem (change s)
  candidates problem step s := source.candidates problem step (change s)
  problemFor type s := source.problemFor type (change s)
  problems s := source.problems (change s)

/-- In states of a kind, which it does not leave, a source answers readings that can be written as a
local graph does. Its problems may differ in their descriptions. -/
structure Mirrors (source : GraphSource σ) (graph : LocalGraph) (Fit : σ → Prop) : Prop where
  ask {r : Reading} (hr : r.Writable) {s : σ} (h : Fit s) :
    (r.ask source s).1 = (r.ask graph.source ()).1 ∧ Fit (r.ask source s).2
  problems {s : σ} (h : Fit s) :
    (source.problems s).1 = .ok (graph.sortedProblems.map Problem.listed) ∧
      Fit (source.problems s).2

theorem map_inj {α β ε : Type} {f : α → β} (hf : Function.Injective f) {a b : Except ε α}
    (h : a.map f = b.map f) : a = b := by
  cases a with
  | error e =>
    cases b with
    | error e' => cases h; rfl
    | ok b => cases h
  | ok a =>
    cases b with
    | error e => cases h
    | ok b => rw [hf (Except.ok.inj h)]

namespace Mirrors

variable {source : GraphSource σ} {graph : LocalGraph} {Fit : σ → Prop} {s : σ}

theorem amid (h : Mirrors source graph Fit) {change : σ → σ} (hc : ∀ s, Fit s → Fit (change s)) :
    Mirrors (source.amid change) graph Fit where
  ask {r} hr _ hs := by
    cases r with
    | firstStep => exact h.ask hr (hc _ hs)
    | candidates => exact h.ask hr (hc _ hs)
    | problemFor => exact h.ask hr (hc _ hs)
  problems hs := h.problems (hc _ hs)

variable (h : Mirrors source graph Fit) (hs : Fit s)
include h hs

theorem firstStep (problem : String) :
    ∃ s', Fit s' ∧ source.firstStep (some problem) s = (graph.firstStep (some problem), s') := by
  have hr : (Reading.firstStep problem).Writable := trivial
  obtain ⟨ha, hf⟩ := h.ask hr hs
  exact ⟨_, hf, Prod.ext (map_inj (fun _ _ => Finding.step.inj) ha) rfl⟩

theorem candidates (problem : String) {step : Step} (hstep : step.Numbered) :
    ∃ s', Fit s' ∧ source.candidates (some problem) step.id s =
      (graph.candidates (some problem) step.id, s') := by
  obtain ⟨id, hid, hw⟩ := hstep
  have hr : (Reading.candidates problem id).Writable := hw
  obtain ⟨ha, hf⟩ := h.ask hr hs
  rw [hid]
  exact ⟨_, hf, Prod.ext (map_inj (fun _ _ => Finding.candidates.inj) ha) rfl⟩

theorem problemFor (type : String) :
    ∃ s', Fit s' ∧ source.problemFor (some type) s = (graph.problemFor (some type), s') := by
  have hr : (Reading.problemFor type).Writable := trivial
  obtain ⟨ha, hf⟩ := h.ask hr hs
  exact ⟨_, hf, Prod.ext (map_inj (fun _ _ => Finding.problem.inj) ha) rfl⟩

section Walk

omit h hs in
theorem holds_of_next {problem : Option String} {step following : Step} {context : Context}
    (hn : Traversal.next graph.source problem step context () = (.ok following, ())) :
    graph.Holds following := by
  obtain ⟨candidates, chosen, hc, first, -, rfl⟩ := Traversal.next_eq_ok_iff.1 hn
  obtain ⟨relation, -, hr⟩ := mem_of_mapM_ok (Prod.mk.inj hc).1 chosen first.mem
  exact LocalGraph.holds_of_get? (LocalGraph.candidate_eq_ok_iff.1 hr).1

theorem next (problem : String) {step : Step} (hstep : step.Numbered) (context : Context) :
    ∃ s', Fit s' ∧ Traversal.next source (some problem) step context s =
      ((Traversal.next graph.source (some problem) step context ()).1, s') := by
  obtain ⟨s', hs', hc⟩ := h.candidates hs problem hstep
  refine ⟨s', hs', ?_⟩
  simp only [Traversal.next, hc, LocalGraph.source]
  rcases graph.candidates (some problem) step.id with f | candidates <;> rfl

theorem walk (hg : ∀ step, graph.Holds step → step.Numbered) (lookup : LookupSource τ)
    (problem : String) (limit left : Nat) {step : Step} (hstep : graph.Holds step)
    (progress : Progress) (t : τ) :
    let r := Traversal.walk ⟨graph.source, lookup⟩ (some problem) limit left step progress ((), t)
    ∃ s', Fit s' ∧ Traversal.walk ⟨source, lookup⟩ (some problem) limit left step progress (s, t) =
      (r.1, r.2.1, (s', r.2.2.2)) := by
  induction left generalizing s step progress t with
  | zero => exact ⟨s, hs, rfl⟩
  | succ left ih =>
    by_cases hr : step.isReply = true
    · exact ⟨s, hs, by simp only [Traversal.walk, hr, if_true]⟩
    by_cases hq : step.isQuery = true
    · simp only [Traversal.walk, hr, hq, Bool.not_true, Bool.false_eq_true, if_false]
      rcases hl : Traversal.lookUp lookup step
        { progress with visited := progress.visited ++ [step.key] } t with ⟨_ | stop, progress', t'⟩
      · obtain ⟨s', hs', hn⟩ := h.next hs problem (hg step hstep) progress'.context
        simp only [hn]
        rcases hf : Traversal.next graph.source (some problem) step progress'.context ()
          with ⟨f | following, ⟨⟩⟩
        · exact ⟨s', hs', rfl⟩
        · exact ih hs' (holds_of_next hf) progress' t'
      · exact ⟨s, hs, rfl⟩
    · exact ⟨s, hs, by simp [Traversal.walk, hr, hq]⟩

theorem run (hg : ∀ step, graph.Holds step → step.Numbered) (lookup : LookupSource τ)
    (limit : Nat) (problem : String) (data : OrderedMap String Datum) (t : τ) :
    let r := Traversal.run ⟨graph.source, lookup⟩ limit (some problem) data ((), t)
    ∃ s', Fit s' ∧ Traversal.run ⟨source, lookup⟩ limit (some problem) data (s, t) =
      (r.1, (s', r.2.2)) := by
  unfold Traversal.run
  rcases Context.ofData data with f | context
  · exact ⟨s, hs, rfl⟩
  obtain ⟨s', hs', hf⟩ := h.firstStep hs problem
  simp only [Traversal.start, hf]
  rcases hl : graph.firstStep (some problem) with f | first
  · refine ⟨s', hs', ?_⟩
    simp only [LocalGraph.source, hl]
  · obtain ⟨s'', hs'', hw⟩ := h.walk hs' hg lookup problem limit limit
      (LocalGraph.holds_of_firstStep hl).1 (.initial context) t
    refine ⟨s'', hs'', ?_⟩
    simp only [hw]
    simp only [LocalGraph.source, hl]

end Walk

section Audit

/-- A level of an audit is the same, and gathers steps of the graph. -/
theorem visitLevel (hg : ∀ step, graph.Holds step → step.Numbered) (problem : String)
    {level : List Step} (hlevel : ∀ step ∈ level, graph.Holds step) (findings : Audit.Findings)
    {next : List Step} (hnext : ∀ step ∈ next, graph.Holds step) :
    let r := (Audit.visitLevel graph.source (some problem) level findings next ()).1
    (∃ s', Fit s' ∧ Audit.visitLevel source (some problem) level findings next s = (r, s')) ∧
      ∀ found, r = .ok found → ∀ step ∈ found.2, graph.Holds step := by
  induction level generalizing s findings next with
  | nil =>
    refine ⟨⟨s, hs, rfl⟩, ?_⟩
    rintro found hr
    cases hr
    exact hnext
  | cons step level ih =>
    have hstep : step.Numbered := hg step (hlevel step List.mem_cons_self)
    obtain ⟨s', hs', hc⟩ := h.candidates hs problem hstep
    simp only [Audit.visitLevel, hc]
    rcases hl : graph.candidates (some problem) step.id with f | candidates
    · simp only [LocalGraph.source, hl]
      exact ⟨⟨s', hs', rfl⟩, fun found hr => by cases hr⟩
    rcases hv : Audit.visitStep step candidates findings next with f | found
    · simp only [LocalGraph.source, hl, hv]
      exact ⟨⟨s', hs', rfl⟩, fun found hr => by cases hr⟩
    · have hgather := Audit.visitStep_gathers hl hv
      simp only [LocalGraph.source, hl, hv]
      refine ih hs' (fun step' hm => hlevel step' (List.mem_cons_of_mem _ hm)) _ fun step' hm => ?_
      rcases (hgather.mem_level step').1 hm with hm | ⟨-, hf⟩
      · exact hnext step' hm
      · exact hgather.holds step' hf

theorem visitLevels (hg : ∀ step, graph.Holds step → step.Numbered) (problem : String)
    (depth : Nat) {level : List Step} (hlevel : ∀ step ∈ level, graph.Holds step)
    (findings : Audit.Findings) :
    ∃ s', Fit s' ∧ Audit.visitLevels source (some problem) depth level findings s =
      ((Audit.visitLevels graph.source (some problem) depth level findings ()).1, s') := by
  have hnone : ∀ step ∈ ([] : List Step), graph.Holds step := fun _ hm => by cases hm
  induction depth generalizing s level findings with
  | zero =>
    obtain ⟨⟨s', hs', hv⟩, -⟩ := h.visitLevel hs hg problem hlevel findings hnone
    refine ⟨s', hs', ?_⟩
    simp only [Audit.visitLevels, hv]
    rcases Audit.visitLevel graph.source (some problem) level findings [] () with ⟨f | found, ⟨⟩⟩
    · rfl
    · rfl
  | succ depth ih =>
    obtain ⟨⟨s', hs', hv⟩, hfound⟩ := h.visitLevel hs hg problem hlevel findings hnone
    simp only [Audit.visitLevels, hv]
    rcases hl : Audit.visitLevel graph.source (some problem) level findings [] ()
      with ⟨f | ⟨found, following⟩, ⟨⟩⟩
    · exact ⟨s', hs', rfl⟩
    · cases following with
      | nil => exact ⟨s', hs', rfl⟩
      | cons step rest => exact ih hs' (hfound _ (congrArg Prod.fst hl)) found

theorem report (hg : ∀ step, graph.Holds step → step.Numbered) (depth : Nat)
    {problem : Problem} {id : String} (hid : problem.id = some id) :
    ∃ s', Fit s' ∧ Audit.problem source depth problem s =
      ((Audit.problem graph.source depth problem ()).1, s') := by
  obtain ⟨s', hs', hf⟩ := h.firstStep hs id
  simp only [Audit.problem, hid, hf]
  rcases hl : graph.firstStep (some id) with f | first
  · refine ⟨s', hs', ?_⟩
    simp only [LocalGraph.source, hl]
    split_ifs <;> rfl
  · have hfirst : ∀ step ∈ [first], graph.Holds step := by
      intro step hm
      rw [List.mem_singleton.1 hm]
      exact (LocalGraph.holds_of_firstStep hl).1
    obtain ⟨s'', hs'', hv⟩ := h.visitLevels hs' hg id depth hfirst ⟨[], [], [first.key]⟩
    refine ⟨s'', hs'', ?_⟩
    have hl : graph.source.firstStep (some id) () = (.ok first, ()) := Prod.ext hl rfl
    simp only [hv, hl]
    rcases Audit.visitLevels graph.source (some id) depth [first] ⟨[], [], [first.key]⟩ ()
      with ⟨f | found, ⟨⟩⟩
    · rfl
    · rfl

omit h hs in
/-- A report does not look at the description of its problem. -/
theorem problem_listed (depth : Nat) (problem : Problem) :
    Audit.problem source depth problem.listed = Audit.problem source depth problem := rfl

theorem reports (hg : ∀ step, graph.Holds step → step.Numbered) (depth : Nat)
    {problems : List Problem} (hp : ∀ problem ∈ problems, ∃ id, problem.id = some id)
    (done : OrderedMap (Option String) Report) :
    ∃ s', Fit s' ∧ Audit.reports source depth (problems.map Problem.listed) done s =
      ((Audit.reports graph.source depth problems done ()).1, s') := by
  induction problems generalizing s done with
  | nil => exact ⟨s, hs, rfl⟩
  | cons problem rest ih =>
    obtain ⟨id, hid⟩ := hp problem List.mem_cons_self
    obtain ⟨s', hs', hr⟩ := h.report hs hg depth hid
    simp only [List.map_cons, Audit.reports, problem_listed, hr]
    rcases Audit.problem graph.source depth problem () with ⟨f | found, ⟨⟩⟩
    · exact ⟨s', hs', rfl⟩
    · exact ih hs' (fun p hm => hp p (List.mem_cons_of_mem _ hm)) (done.insert problem.id found)

theorem all (hg : graph.Definite) (hw : graph.Writable) (depth : Nat) :
    ∃ s', Fit s' ∧ Audit.all source depth s = ((Audit.all graph.source depth ()).1, s') := by
  obtain ⟨hp, hf⟩ := h.problems hs
  have hids : ∀ problem ∈ graph.sortedProblems, ∃ id, problem.id = some id := fun problem hm =>
    (hg.of_mem_sortedProblems hm).1.imp fun _ => And.left
  obtain ⟨s', hs', hr⟩ := h.reports hf (fun _ => hg.numbered hw) depth hids .empty
  have hl : source.problems s = (.ok (graph.sortedProblems.map Problem.listed),
      (source.problems s).2) := Prod.ext hp rfl
  refine ⟨s', hs', ?_⟩
  unfold Audit.all
  rw [hl]
  exact hr

end Audit

end Mirrors

/-- What a playbook is used for. -/
inductive Consultation (τ : Type) where
  | run (lookup : LookupSource τ) (limit : Nat) (problem : String) (data : OrderedMap String Datum)
  | intent (type : String)
  | report (depth : Nat) (problem : Problem) (id : String)
  | reports (depth : Nat)

/-- What a use of a playbook comes to. -/
inductive Consulted where
  | outcome (outcome : Outcome)
  | problem (id : Except Fault String)
  | report (report : Except Fault Report)
  | reports (reports : Except Fault (OrderedMap (Option String) Report))

/-- One use of a playbook. An audit of a problem needs its id. -/
def consult (source : GraphSource σ) : Consultation τ → σ × τ → Consulted × (σ × τ)
  | .run lookup limit problem data, world =>
    let (outcome, world) := Traversal.run ⟨source, lookup⟩ limit (some problem) data world
    (.outcome outcome, world)
  | .intent type, (s, t) =>
    let (id, s) := source.problemFor (some type) s
    (.problem id, (s, t))
  | .report depth problem id, (s, t) =>
    let (report, s) := Audit.problem source depth { problem with id := some id } s
    (.report report, (s, t))
  | .reports depth, (s, t) =>
    let (reports, s) := Audit.all source depth s
    (.reports reports, (s, t))

/-- What uses of a playbook, one after the other, come to. -/
def consultAll (source : GraphSource σ) :
    List (Consultation τ) → σ × τ → List Consulted × (σ × τ)
  | [], world => ([], world)
  | use :: rest, world =>
    let (consulted, world) := consult source use world
    let (others, world) := consultAll source rest world
    (consulted :: others, world)

theorem consultAll_cons (source : GraphSource σ) (use : Consultation τ)
    (rest : List (Consultation τ)) (world : σ × τ) :
    (consultAll source (use :: rest) world).1 =
      (consult source use world).1 :: (consultAll source rest (consult source use world).2).1 := rfl

theorem consultAll_run (source : GraphSource σ) (lookup : LookupSource τ) (limit : Nat)
    (problem : String) (data : OrderedMap String Datum) (world : σ × τ) :
    (consultAll source [.run lookup limit problem data] world).1 =
      [.outcome (Traversal.run ⟨source, lookup⟩ limit (some problem) data world).1] := rfl

section Consult

variable {source : GraphSource σ} {graph : LocalGraph} {Fit : σ → Prop} {s : σ}

theorem consult_mirrored (h : Mirrors source graph Fit) (hg : graph.Definite) (hw : graph.Writable)
    (hs : Fit s) (use : Consultation τ) (t : τ) :
    let r := consult graph.source use ((), t)
    ∃ s', Fit s' ∧ consult source use (s, t) = (r.1, (s', r.2.2)) := by
  have hid (step : Step) : graph.Holds step → step.Numbered := hg.numbered hw
  cases use with
  | run lookup limit problem data =>
    obtain ⟨s', hs', hr⟩ := h.run hs hid lookup limit problem data t
    exact ⟨s', hs', by simp only [consult, hr]⟩
  | intent type =>
    obtain ⟨s', hs', hr⟩ := h.problemFor hs type
    exact ⟨s', hs', by simp only [consult, hr, LocalGraph.source]⟩
  | report depth problem id =>
    have hp : ({ problem with id := some id } : Problem).id = some id := rfl
    obtain ⟨s', hs', hr⟩ := h.report hs hid depth hp
    exact ⟨s', hs', by simp only [consult, hr]⟩
  | reports depth =>
    obtain ⟨s', hs', hr⟩ := h.all hs hg hw depth
    exact ⟨s', hs', by simp only [consult, hr]⟩

theorem consultAll_mirrored (h : Mirrors source graph Fit) (hg : graph.Definite)
    (hw : graph.Writable) (hs : Fit s) (uses : List (Consultation τ)) (t : τ) :
    let r := consultAll graph.source uses ((), t)
    ∃ s', Fit s' ∧ consultAll source uses (s, t) = (r.1, (s', r.2.2)) := by
  induction uses generalizing s t with
  | nil => exact ⟨s, hs, rfl⟩
  | cons use rest ih =>
    obtain ⟨s', hs', hc⟩ := consult_mirrored h hg hw hs use t
    obtain ⟨s'', hs'', hr⟩ := ih hs' (consult graph.source use ((), t)).2.2
    refine ⟨s'', hs'', ?_⟩
    simp only [consultAll, hc, hr]

end Consult

namespace RemoteGraph

variable {θ δ : Type} {remote : RemoteGraph θ δ} {graph : LocalGraph}

/-- A database that always answers with the records of a graph. -/
structure Tells (remote : RemoteGraph θ δ) (graph : LocalGraph) : Prop where
  reading (r : Reading) (outside : δ) :
    (remote.records.ask remote.database r.statement r.parameters outside).1 =
      .ok (graph.rowsFor r)
  problems (outside : δ) : (remote.records.ask remote.database .allProblems [] outside).1 =
    .ok (graph.sortedProblems.map Problem.row)

/-- The answers to readings that are kept are the records of a graph. -/
def Keeps (graph : LocalGraph) (s : RemoteState θ δ) : Prop :=
  ∀ r : Reading, ∀ born rows, s.kept.get? r.name = some (born, rows) → rows = graph.rowsFor r

theorem keeps_keeping {s : RemoteState θ δ} (h : Keeps graph s) (r : Reading) (born : θ)
    (outside : δ) : Keeps graph (⟨outside, keeping r born s.kept (.ok (graph.rowsFor r))⟩ :
      RemoteState θ δ) := by
  intro r' born' rows' hg
  rcases hr : graph.rowsFor r with _ | ⟨row, rows⟩
  · rw [hr] at hg
    exact h r' born' rows' hg
  · rw [hr] at hg
    simp only [keeping, OrderedMap.get?_insert] at hg
    split_ifs at hg with hn
    · rw [Reading.name_inj hn, hr]
      exact (Prod.mk.inj (Option.some.inj hg)).2.symm
    · exact h r' born' rows' hg

variable [Sub θ] [LT θ] [DecidableLT θ]

theorem mirrors_source (ht : remote.Tells graph) (hg : graph.Definite) :
    Mirrors remote.source graph (Keeps graph) where
  ask {r} hr s hs := by
    rcases hk : remote.keptAnswer r.name s with _ | rows
    · rcases ha : remote.records.ask remote.database r.statement r.parameters s.outside
        with ⟨told, outside⟩
      obtain rfl : told = .ok (graph.rowsFor r) := by
        rw [← ht.reading r s.outside, ha]
      rw [ask_of_not_kept remote hr hk ha]
      exact ⟨hg.findIn_rowsFor r, keeps_keeping hs r _ _⟩
    · obtain ⟨born, hb, -⟩ := (keptAnswer_eq_some_iff remote).1 hk
      rw [ask_of_kept remote hr hk, hs r born rows hb]
      exact ⟨hg.findIn_rowsFor r, hs⟩
  problems {s} hs := by
    have hp := ht.problems s.outside
    simp only [source, problems, RemoteGraph.ask]
    rcases ha : remote.records.ask remote.database .allProblems [] s.outside with ⟨told, outside⟩
    rw [ha] at hp
    obtain rfl : told = .ok (graph.sortedProblems.map Problem.row) := hp
    exact ⟨hg.mapM_problemRow, hs⟩

/-- Whatever its lifetime and its clock, a store over a database that tells the records of a graph
whose step numbers can be written is used to the same effect as the graph. -/
theorem consultAll_eq (ht : remote.Tells graph) (hg : graph.Definite) (hw : graph.Writable)
    (drift : δ → δ) (start : δ) (uses : List (Consultation τ)) (t : τ) :
    (consultAll (remote.source.amid fun s => { s with outside := drift s.outside }) uses
        (⟨start, .empty⟩, t)).1 =
      (consultAll graph.source uses ((), t)).1 := by
  have hdrift (s : RemoteState θ δ) (hs : Keeps graph s) :
      Keeps graph { s with outside := drift s.outside } := hs
  have hm := (mirrors_source ht hg).amid hdrift
  have hs : Keeps graph (⟨start, .empty⟩ : RemoteState θ δ) := fun _ _ _ h => by cases h
  obtain ⟨s', -, hr⟩ := consultAll_mirrored hm hg hw hs uses t
  rw [hr]

/-- The records of a graph, beside a clock that stands still while they are told. -/
def telling (graph : LocalGraph) : RecordSource θ θ where
  ask _ statement parameters now :=
    (match statement, parameters with
    | .firstStep, [(_, .plain (.text problem))] => .ok (graph.rowsFor (.firstStep problem))
    | .candidates, [(_, .plain (.text problem)), (_, .plain (.int step))] =>
      .ok (graph.rowsFor (.candidates problem step))
    | .problemByType, [(_, .plain (.text type))] => .ok (graph.rowsFor (.problemFor type))
    | .allProblems, _ => .ok (graph.sortedProblems.map Problem.row)
    | _, _ => .ok [], now)
  time := id

omit [Sub θ] [LT θ] [DecidableLT θ] in
theorem tells_telling (database : Option String) (strict : Bool) (lifetime : θ) :
    Tells ⟨telling graph, database, strict, lifetime⟩ graph where
  reading r _ := by cases r <;> rfl
  problems _ := rfl

end RemoteGraph

theorem LocalGraph.refunds_definite : refunds.Definite where
  built := refunds_built
  targets := by decide
  steps step hstep := by
    have hm : (step.key, step) ∈ refunds.steps.entries := OrderedMap.get?_eq_some_iff.1 hstep
    have he : refunds.steps.entries =
        [(refunds.lookup.key, refunds.lookup), (refunds.paid.key, refunds.paid),
          (refunds.nothing.key, refunds.nothing)] := rfl
    rw [he] at hm
    simp only [List.mem_cons, Prod.mk.injEq, List.not_mem_nil, or_false] at hm
    rcases hm with ⟨-, rfl⟩ | ⟨-, rfl⟩ | ⟨-, rfl⟩
    · exact ⟨⟨1, rfl⟩, by decide⟩
    · exact ⟨⟨2, rfl⟩, by decide⟩
    · exact ⟨⟨3, rfl⟩, by decide⟩
  types := by decide

/-- A walk, two problems and an audit, with a clock that goes on by 3 before each question. -/
theorem RemoteGraph.consultAll_eq_refunds :
    let graph := LocalGraph.refunds
    let remote : RemoteGraph Int Int := ⟨telling graph, none, false, 5⟩
    let systems : SqlSystems := .ofRegistered
      (.ofEntries [("shop", .engine (.ofEntries
        [("SELECT amount FROM orders WHERE id = 7", .row (some [.int 150]))]))])
      none true .empty
    let uses : List (Consultation SqlConnections) :=
      [.intent "refund", .run systems.source 9 "refund" (.ofEntries [("id", .int 7)]),
        .reports 9, .intent "return"]
    let found := (consultAll (remote.source.amid fun s => { s with outside := s.outside + 3 }) uses
      (⟨0, .empty⟩, .fresh)).1
    remote.Tells graph ∧ graph.Definite ∧ graph.Writable ∧
      found = (consultAll graph.source uses ((), .fresh)).1 ∧
      found.head? = some (.problem (.ok "refund")) := by
  intro graph remote systems uses found
  have ht : remote.Tells graph := tells_telling none false 5
  have hg : graph.Definite := LocalGraph.refunds_definite
  have hw : graph.Writable := LocalGraph.writable_of_le (by decide)
  have he : found = (consultAll graph.source uses ((), .fresh)).1 :=
    consultAll_eq ht hg hw (· + 3) 0 uses .fresh
  have hp : graph.problemFor (some "refund") = .ok "refund" := by
    have hs : graph.sortedProblems = [⟨some "refund", some "refund", none, true⟩] :=
      congrArg (List.map Prod.snd) (List.mergeSort_singleton _)
    rw [LocalGraph.problemFor, hs]
    rfl
  refine ⟨ht, hg, hw, he, ?_⟩
  rw [he, consultAll_cons, List.head?_cons]
  exact congrArg (fun r => some (Consulted.problem r)) hp

/-- A lookup whose number has too many digits leads to a reply. A walk in the graph itself is
completed, but the store over a database that tells its records has no name for what comes after
the lookup, so that the same walk is interrupted there. -/
theorem RemoteGraph.consultAll_unwritten :
    let lookup : Step := { LocalGraph.refunds.lookup with id := some Text.leastUnprinted }
    let graph : LocalGraph :=
      { (LocalGraph.empty.addStep lookup).addStep LocalGraph.refunds.paid with
        problems := OrderedMap.empty.insert "refund" ⟨some "refund", some "refund", none, true⟩
        problemsById := (OrderedMap.every_empty _).insert rfl
        relations := [⟨some "refund", none, lookup.id, some firstRelation, none⟩,
          ⟨some "refund", lookup.id, some 2, some defaultRelation, none⟩] }
    let remote : RemoteGraph Int Int := ⟨telling graph, none, false, 5⟩
    let systems : SqlSystems := .ofRegistered
      (.ofEntries [("shop", .engine (.ofEntries
        [("SELECT amount FROM orders WHERE id = 7", .row (some [.int 150]))]))])
      none true .empty
    let data : OrderedMap String Datum := .ofEntries [("id", .text "7")]
    let uses : List (Consultation SqlConnections) := [.run systems.source 9 "refund" data]
    remote.Tells graph ∧ graph.Definite ∧
      ∃ outcome outcome',
        (consultAll graph.source uses ((), .fresh)).1 = [.outcome outcome] ∧
        (consultAll (remote.source.amid id) uses (⟨0, .empty⟩, .fresh)).1 = [.outcome outcome'] ∧
        outcome.message = "150" ∧ outcome'.reason? = some "system error" := by
  intro lookup graph remote systems data uses
  have hb : graph.Built := by
    have hsteps : LocalGraph.Built ((LocalGraph.empty.addStep lookup).addStep
      LocalGraph.refunds.paid) := .step (.step .empty)
    have hproblem := @LocalGraph.Built.problem _ _ ⟨some "refund", some "refund", none, true⟩
      hsteps rfl
    have hfirst := hproblem.relation (@LocalGraph.addRelation_of _
      ⟨some "refund", none, lookup.id, some firstRelation, none⟩
      (by decide +kernel) (by decide +kernel) (by decide +kernel))
    exact hfirst.relation (@LocalGraph.addRelation_of _
      ⟨some "refund", lookup.id, some 2, some defaultRelation, none⟩
      (by decide +kernel) (by decide +kernel) (by decide +kernel))
  have hsteps : ∀ step, graph.Holds step →
      (∃ id, step.id = some id) ∧ step.operation ≠ none := by
    intro step hstep
    have hm : (step.key, step) ∈ graph.steps.entries := OrderedMap.get?_eq_some_iff.1 hstep
    have he : graph.steps.entries = [(lookup.key, lookup),
        (LocalGraph.refunds.paid.key, LocalGraph.refunds.paid)] := by decide +kernel
    rw [he] at hm
    simp only [List.mem_cons, Prod.mk.injEq, List.not_mem_nil, or_false] at hm
    rcases hm with ⟨-, rfl⟩ | ⟨-, rfl⟩
    · exact ⟨⟨_, rfl⟩, by decide⟩
    · exact ⟨⟨2, rfl⟩, by decide⟩
  exact ⟨tells_telling none false 5, ⟨hb, by decide +kernel, hsteps, by decide +kernel⟩, _, _,
    consultAll_run .., consultAll_run .., by decide +kernel, by decide +kernel⟩

end Playbook
