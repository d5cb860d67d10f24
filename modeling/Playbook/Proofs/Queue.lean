import Mathlib.Data.Multiset.DershowitzManna
import Playbook.Audit

/-!
# The queue of an audit

An audit that goes level by level reports what one reports that keeps a queue of steps, each with
its distance from the first step: it takes a step from the front, and puts those that are new and
not too far at the back (`problem_eq_problemByQueue`). Such a queue is a level followed by what has
been gathered of the next (`drain_level`). Steps are put in for one that is taken out and all of
them have less distance left to go, so a queue runs empty for every graph.
-/

namespace Playbook.Audit

variable {σ : Type}

/-- The steps to be taken in, each with its distance from the first step. -/
abbrev Queue := List (Step × Nat)

namespace Queue

/-- Steps at the same distance. -/
def ofLevel (distance : Nat) (level : List Step) : Queue := level.map (·, distance)

/-- How far it may go on from the steps of a queue. -/
def ranges (limit : Nat) (queue : Queue) : Multiset Nat := queue.map fun e => limit - e.2

end Queue

/-- Takes in one candidate of a step at a distance: an issue if it has no condition where it needs
one, and its step at the back of the queue if that is new and not too far. -/
def enqueueCandidate (limit : Nat) (step : Step) (distance : Nat) (found : Findings × Queue)
    (candidate : Candidate) : Except Fault (Findings × Queue) := do
  let (findings, queue) := found
  let findings := { findings with issues := findings.issues ++ (← guardIssues step candidate) }
  let key := candidate.step.key
  if findings.seen.contains key then return (findings, queue)
  else if distance < limit then
    return ({ findings with seen := key :: findings.seen },
      queue ++ [(candidate.step, distance + 1)])
  else return (findings, queue)

/-- Takes in a step at a distance with the candidates after it. -/
def enqueueStep (limit : Nat) (step : Step) (distance : Nat) (candidates : List Candidate)
    (findings : Findings) (queue : Queue) : Except Fault (Findings × Queue) := do
  if candidates.isEmpty then
    let issues := findings.issues ++ (← endIssues step)
    let ends := findings.ends ++ [(step.id, step.operation)]
    return ({ findings with ends := ends, issues := issues }, queue)
  else candidates.foldlM (enqueueCandidate limit step distance) (findings, queue)

section Termination

variable {limit distance : Nat} {step : Step} {found : Findings × Queue}

theorem enqueueCandidate_queue {before : Findings × Queue} {candidate : Candidate}
    (h : enqueueCandidate limit step distance before candidate = .ok found) :
    ∃ later : Queue, found.2 = before.2 ++ later ∧
      ∀ e ∈ later, distance < limit ∧ e.2 = distance + 1 := by
  unfold enqueueCandidate at h
  rcases hg : guardIssues step candidate with f | issues <;>
    simp only [hg, bind, Except.bind, reduceCtorEq] at h
  split_ifs at h with _ hd <;> cases h
  · exact ⟨[], by simp, by simp⟩
  · exact ⟨_, rfl, by simp [hd]⟩
  · exact ⟨[], by simp, by simp⟩

theorem foldlM_enqueueCandidate_queue : ∀ {candidates : List Candidate} {before : Findings × Queue},
    candidates.foldlM (enqueueCandidate limit step distance) before = .ok found →
      ∃ later : Queue, found.2 = before.2 ++ later ∧
        ∀ e ∈ later, distance < limit ∧ e.2 = distance + 1
  | [], before, h => by
    cases h
    exact ⟨[], by simp, by simp⟩
  | candidate :: rest, before, h => by
    rw [List.foldlM_cons] at h
    rcases hc : enqueueCandidate limit step distance before candidate with f | mid <;> rw [hc] at h
    · cases h
    obtain ⟨some, hsome, hs⟩ := enqueueCandidate_queue hc
    obtain ⟨more, hmore, hm⟩ := foldlM_enqueueCandidate_queue h
    exact ⟨some ++ more, by rw [hmore, hsome, List.append_assoc], List.forall_mem_append.2 ⟨hs, hm⟩⟩

/-- Only steps that are one further are put at the back of the queue, and none from the limit. -/
theorem enqueueStep_queue {candidates : List Candidate} {findings : Findings} {queue : Queue}
    (h : enqueueStep limit step distance candidates findings queue = .ok found) :
    ∃ later : Queue, found.2 = queue ++ later ∧
      ∀ e ∈ later, distance < limit ∧ e.2 = distance + 1 := by
  unfold enqueueStep at h
  split_ifs at h
  · rcases he : endIssues step with f | issues <;>
      simp only [he, bind, Except.bind, reduceCtorEq] at h
    cases h
    exact ⟨[], by simp, by simp⟩
  · exact foldlM_enqueueCandidate_queue h

theorem ranges_lt {candidates : List Candidate} {findings : Findings} {queue : Queue}
    (h : enqueueStep limit step distance candidates findings queue = .ok found) :
    (found.2.ranges limit).IsDershowitzMannaLT
      (Queue.ranges limit ((step, distance) :: queue)) := by
  obtain ⟨later, hq, hlater⟩ := enqueueStep_queue h
  refine ⟨queue.ranges limit, Queue.ranges limit later, {limit - distance},
    Multiset.singleton_ne_zero _, ?_, ?_, ?_⟩
  · simp [hq, Queue.ranges]
  · simp [Queue.ranges, ← Multiset.cons_coe, Multiset.singleton_add, add_comm]
  · intro n hn
    obtain ⟨e, he, rfl⟩ := List.mem_map.1 (Multiset.mem_coe.1 hn)
    obtain ⟨hd, he⟩ := hlater e he
    exact ⟨_, Multiset.mem_singleton_self _, by omega⟩

end Termination

/-- Takes in the steps of a queue from its front until it is empty. -/
def drain (graph : GraphSource σ) (problem : Option String) (limit : Nat) :
    Queue → Findings → Attempt σ Findings
  | [], findings, s => (.ok findings, s)
  | (step, distance) :: rest, findings, s =>
    match graph.candidates problem step.id s with
    | (.error f, s) => (.error f, s)
    | (.ok candidates, s) =>
      match _h : enqueueStep limit step distance candidates findings rest with
      | .error f => (.error f, s)
      | .ok (findings, queue) => drain graph problem limit queue findings s
termination_by queue => queue.ranges limit
decreasing_by exact ranges_lt _h

theorem drain_cons (graph : GraphSource σ) (problem : Option String) (limit : Nat) (step : Step)
    (distance : Nat) (rest : Queue) (findings : Findings) (s : σ) :
    drain graph problem limit ((step, distance) :: rest) findings s =
      match graph.candidates problem step.id s with
      | (.error f, s) => (.error f, s)
      | (.ok candidates, s) =>
        match enqueueStep limit step distance candidates findings rest with
        | .error f => (.error f, s)
        | .ok (findings, queue) => drain graph problem limit queue findings s := by
  rw [drain]
  rcases graph.candidates problem step.id s with ⟨f | candidates, s⟩
  · rfl
  · dsimp only
    split <;> rename_i he <;> rw [he]

/-- The report on a problem, looking at most `depth` relations away from its first step, one step
of the queue after the other. -/
def problemByQueue (graph : GraphSource σ) (depth : Nat) (p : Problem) :
    Attempt σ Report := fun s =>
  match graph.firstStep p.id s with
  | (.error f, s) =>
    if f.kind = .notFound then (.ok ⟨p.id, p.type, false, [], [.noFirstStep]⟩, s)
    else (.error f, s)
  | (.ok first, s) =>
    match drain graph p.id depth [(first, 0)] ⟨[], [], [first.key]⟩ s with
    | (.error f, s) => (.error f, s)
    | (.ok findings, s) =>
      let issues := if findings.ends.isEmpty then findings.issues ++ [.noEnd] else findings.issues
      (.ok ⟨p.id, p.type, true, findings.ends, issues⟩, s)

section Within

variable {limit distance : Nat} {step : Step} (hd : distance < limit)
include hd

/-- Within the limit a queue gathers the next level behind what is left of one. -/
theorem enqueueCandidate_within (rest : Queue) (findings : Findings) (next : List Step)
    (candidate : Candidate) :
    enqueueCandidate limit step distance (findings, rest ++ Queue.ofLevel (distance + 1) next)
        candidate =
      (visitCandidate step (findings, next) candidate).map fun found =>
        (found.1, rest ++ Queue.ofLevel (distance + 1) found.2) := by
  unfold enqueueCandidate visitCandidate
  rcases guardIssues step candidate with f | issues
  · rfl
  simp only [bind, Except.bind, hd, if_true, List.contains_iff_mem]
  split_ifs
  · rfl
  · simp [pure, Except.pure, Except.map, Queue.ofLevel]

theorem foldlM_enqueueCandidate_within (rest : Queue) (candidates : List Candidate)
    (findings : Findings) (next : List Step) :
    candidates.foldlM (enqueueCandidate limit step distance)
        (findings, rest ++ Queue.ofLevel (distance + 1) next) =
      (candidates.foldlM (visitCandidate step) (findings, next)).map fun found =>
        (found.1, rest ++ Queue.ofLevel (distance + 1) found.2) := by
  induction candidates generalizing findings next with
  | nil => rfl
  | cons candidate candidates ih =>
    rw [List.foldlM_cons, List.foldlM_cons, enqueueCandidate_within hd]
    rcases visitCandidate step (findings, next) candidate with f | ⟨findings, next⟩
    · rfl
    · exact ih findings next

theorem enqueueStep_within (rest : Queue) (candidates : List Candidate) (findings : Findings)
    (next : List Step) :
    enqueueStep limit step distance candidates findings
        (rest ++ Queue.ofLevel (distance + 1) next) =
      (visitStep step candidates findings next).map fun found =>
        (found.1, rest ++ Queue.ofLevel (distance + 1) found.2) := by
  unfold enqueueStep visitStep
  split_ifs
  · cases endIssues step <;> rfl
  · exact foldlM_enqueueCandidate_within hd rest candidates findings next

/-- A level is taken in before what has been gathered of the next. -/
theorem drain_level (graph : GraphSource σ) (problem : Option String) (level : List Step)
    (findings : Findings) (next : List Step) (s : σ) :
    drain graph problem limit
        (Queue.ofLevel distance level ++ Queue.ofLevel (distance + 1) next) findings s =
      match visitLevel graph problem level findings next s with
      | (.error f, s) => (.error f, s)
      | (.ok (findings, next), s) =>
        drain graph problem limit (Queue.ofLevel (distance + 1) next) findings s := by
  induction level generalizing findings next s with
  | nil => rfl
  | cons step level ih =>
    rw [Queue.ofLevel, List.map_cons, List.cons_append, drain_cons, visitLevel]
    rcases graph.candidates problem step.id s with ⟨f | candidates, s⟩
    · rfl
    dsimp only
    rw [enqueueStep_within hd]
    rcases visitStep step candidates findings next with f | ⟨findings, next⟩
    · rfl
    · exact ih findings next s

end Within

/-- What has been found apart from the steps that were come across. -/
def Findings.told (findings : Findings) : List (Option Int × Option String) × List Issue :=
  (findings.ends, findings.issues)

theorem cases_of_map_eq {α β γ : Type} {r : Except Fault α} {r' : Except Fault β} {f : α → γ}
    {g : β → γ} (h : r.map f = r'.map g) :
    (∃ e, r = .error e ∧ r' = .error e) ∨ ∃ a b, r = .ok a ∧ r' = .ok b ∧ f a = g b := by
  rcases r with e | a <;> rcases r' with e' | b
  · exact .inl ⟨e, rfl, congrArg _ (Except.error.inj h).symm⟩
  · cases h
  · cases h
  · exact .inr ⟨a, b, rfl, rfl, Except.ok.inj h⟩

section Last

variable (limit : Nat) (step : Step) {findings findings' : Findings}

/-- At the limit no step is put in any more, while a level is still gathered for nothing. -/
theorem enqueueCandidate_last (queue : Queue) (candidate : Candidate)
    (h : findings.told = findings'.told) (next : List Step) :
    (enqueueCandidate limit step limit (findings, queue) candidate).map
        (fun found => (found.1.told, found.2)) =
      (visitCandidate step (findings', next) candidate).map fun found => (found.1.told, queue) := by
  obtain ⟨he, hi⟩ := Prod.mk.inj h
  unfold enqueueCandidate visitCandidate
  rcases guardIssues step candidate with f | issues
  · rfl
  simp only [bind, Except.bind, lt_self_iff_false, if_false]
  split_ifs <;> simp only [pure, Except.pure, Except.map, Findings.told, he, hi]

theorem foldlM_enqueueCandidate_last (queue : Queue) (candidates : List Candidate)
    (h : findings.told = findings'.told) (next : List Step) :
    (candidates.foldlM (enqueueCandidate limit step limit) (findings, queue)).map
        (fun found => (found.1.told, found.2)) =
      (candidates.foldlM (visitCandidate step) (findings', next)).map
        fun found => (found.1.told, queue) := by
  induction candidates generalizing findings findings' next with
  | nil => exact congrArg (fun told => Except.ok (told, queue)) h
  | cons candidate candidates ih =>
    rw [List.foldlM_cons, List.foldlM_cons]
    have hfirst := enqueueCandidate_last limit step queue candidate h next
    rcases cases_of_map_eq hfirst with
      ⟨f, he, hv⟩ | ⟨⟨found, queue⟩, ⟨found', next⟩, he, hv, hf⟩
    · rw [he, hv]
      rfl
    · rw [he, hv]
      obtain ⟨ht, rfl⟩ := Prod.mk.inj hf
      exact ih ht next

theorem enqueueStep_last (queue : Queue) (candidates : List Candidate)
    (h : findings.told = findings'.told) (next : List Step) :
    (enqueueStep limit step limit candidates findings queue).map
        (fun found => (found.1.told, found.2)) =
      (visitStep step candidates findings' next).map fun found => (found.1.told, queue) := by
  unfold enqueueStep visitStep
  split_ifs
  · obtain ⟨he, hi⟩ := Prod.mk.inj h
    rcases endIssues step with f | issues
    · rfl
    · simp only [bind, Except.bind, pure, Except.pure, Except.map, Findings.told, he, hi]
  · exact foldlM_enqueueCandidate_last limit step queue candidates h next

theorem drain_last (graph : GraphSource σ) (problem : Option String) (level : List Step)
    (h : findings.told = findings'.told) (next : List Step) (s : σ) :
    (drain graph problem limit (Queue.ofLevel limit level) findings s).map
        (Except.map Findings.told) id =
      (visitLevel graph problem level findings' next s).map
        (Except.map fun found => found.1.told) id := by
  induction level generalizing findings findings' next s with
  | nil =>
    rw [Queue.ofLevel, List.map_nil, drain, visitLevel]
    exact congrArg (fun told => (Except.ok told, s)) h
  | cons step level ih =>
    rw [Queue.ofLevel, List.map_cons, drain_cons, visitLevel]
    rcases graph.candidates problem step.id s with ⟨f | candidates, s⟩
    · rfl
    dsimp only
    have hfirst := enqueueStep_last limit step (level.map (·, limit)) candidates h next
    rcases cases_of_map_eq hfirst with
      ⟨f, he, hv⟩ | ⟨⟨found, queue⟩, ⟨found', next⟩, he, hv, hf⟩
    · rw [he, hv]
      rfl
    · rw [he, hv]
      obtain ⟨ht, rfl⟩ := Prod.mk.inj hf
      exact ih ht next s

end Last

/-- Taken in as a queue, a level and those that follow up to the limit come to the same. -/
theorem drain_levels (graph : GraphSource σ) (problem : Option String) (depth : Nat)
    (distance : Nat) (level : List Step) (findings : Findings) (s : σ) :
    (drain graph problem (distance + depth) (Queue.ofLevel distance level) findings s).map
        (Except.map Findings.told) id =
      (visitLevels graph problem depth level findings s).map (Except.map Findings.told) id := by
  induction depth generalizing distance level findings s with
  | zero =>
    refine (drain_last distance graph problem level rfl [] s).trans ?_
    rw [visitLevels]
    rcases visitLevel graph problem level findings [] s with ⟨f | ⟨findings, next⟩, s⟩ <;> rfl
  | succ depth ih =>
    have hlevel := drain_level (show distance < distance + (depth + 1) by omega) graph problem level
      findings [] s
    rw [Queue.ofLevel, Queue.ofLevel, List.map_nil, List.append_nil] at hlevel
    rw [Queue.ofLevel, hlevel, visitLevels]
    rcases visitLevel graph problem level findings [] s with ⟨f | ⟨findings, _ | ⟨step, next⟩⟩, s⟩
    · rfl
    · dsimp only
      rw [Queue.ofLevel, List.map_nil, drain]
    · dsimp only
      rw [show distance + (depth + 1) = distance + 1 + depth by omega]
      exact ih (distance + 1) (step :: next) findings s

/-- An audit by levels reports what one reports that keeps a queue, for every graph and depth, and
leaves what it leaves. -/
theorem problem_eq_problemByQueue (graph : GraphSource σ) (depth : Nat) (p : Problem) (s : σ) :
    problem graph depth p s = problemByQueue graph depth p s := by
  unfold problem problemByQueue
  rcases graph.firstStep p.id s with ⟨f | first, s⟩
  · rfl
  have h := drain_levels graph p.id depth 0 [first] ⟨[], [], [first.key]⟩ s
  rw [Nat.zero_add, Queue.ofLevel, List.map_singleton] at h
  dsimp only
  rcases hd : drain graph p.id depth [(first, 0)] ⟨[], [], [first.key]⟩ s with ⟨r, s₁⟩
  rcases hv : visitLevels graph p.id depth [first] ⟨[], [], [first.key]⟩ s with ⟨r', s₂⟩
  rw [hd, hv] at h
  obtain ⟨hr, rfl⟩ := Prod.mk.inj h
  rcases cases_of_map_eq hr with ⟨f, rfl, rfl⟩ | ⟨found, found', rfl, rfl, hf⟩
  · rfl
  · obtain ⟨he, hi⟩ := Prod.mk.inj hf
    simp only [he, hi, id]

end Playbook.Audit
