import Mathlib.Data.Nat.Find
import Playbook.Proofs.LocalReads

/-!
# Distances in a local graph

A step leads to another over a relation of the problem to a next step. `Reaches` counts the
relations from one step to another, with every cycle that there is; the least count is the
distance. Steps at a distance above zero come right after steps one nearer (`Distance.pred`).
-/

namespace Playbook.LocalGraph

variable {graph : LocalGraph} {problem : Option String} {first a b s : Step} {m n : Nat}

/-- One step leads to another over a relation to a next step. -/
def Leads (graph : LocalGraph) (problem : Option String) (a b : Step) : Prop :=
  ∃ relation ∈ graph.relationsFrom problem a.id,
    graph.steps.get? (problem, relation.target) = some b

instance (graph : LocalGraph) (problem : Option String) (a b : Step) :
    Decidable (graph.Leads problem a b) :=
  inferInstanceAs (Decidable (∃ relation ∈ graph.relationsFrom problem a.id, _))

/-- So many relations lead from one step to another. -/
def Reaches (graph : LocalGraph) (problem : Option String) (first : Step) : Nat → Step → Prop
  | 0, s => s = first
  | n + 1, s => ∃ a, Reaches graph problem first n a ∧ graph.Leads problem a s

/-- The least number of relations from one step to another. -/
def Distance (graph : LocalGraph) (problem : Option String) (first : Step) (n : Nat) (s : Step) :
    Prop :=
  graph.Reaches problem first n s ∧ ∀ m < n, ¬ graph.Reaches problem first m s

/-- At most so many relations lead from one step to another. -/
def Within (graph : LocalGraph) (problem : Option String) (first : Step) (n : Nat) (s : Step) :
    Prop :=
  ∃ m ≤ n, graph.Reaches problem first m s

theorem Leads.holds (h : graph.Leads problem a b) : graph.Holds b := by
  obtain ⟨r, -, hr⟩ := h
  exact holds_of_get? hr

theorem Reaches.holds (hf : graph.Holds first) :
    ∀ {n : Nat} {s : Step}, graph.Reaches problem first n s → graph.Holds s
  | 0, _, h => h ▸ hf
  | _ + 1, _, ⟨_, _, h⟩ => h.holds

theorem Reaches.problem_eq (hf : first.problem = problem) :
    ∀ {n : Nat} {s : Step}, graph.Reaches problem first n s → s.problem = problem
  | 0, _, h => h ▸ hf
  | _ + 1, _, ⟨_, _, _, _, h⟩ => congrArg Prod.fst (key_of_get? h)

/-- What is closed under relations holds all that can be reached. -/
theorem Reaches.mem {known : List Step} (hf : first ∈ known)
    (hk : ∀ a ∈ known, ∀ relation ∈ graph.relationsFrom problem a.id,
      ∀ b ∈ graph.steps.get? (problem, relation.target), b ∈ known) :
    ∀ {n : Nat} {s : Step}, graph.Reaches problem first n s → s ∈ known
  | 0, _, h => h ▸ hf
  | _ + 1, _, ⟨a, ha, r, hr, hb⟩ => hk a (mem hf hk ha) r hr _ hb

theorem leads_iff {candidates : List Candidate}
    (h : graph.candidates problem a.id = .ok candidates) :
    graph.Leads problem a b ↔ ∃ c ∈ candidates, c.step = b := by
  constructor
  · rintro ⟨r, hr, hb⟩
    obtain ⟨c, hc, hf⟩ := mapM_ok_of_mem h r hr
    have hs := (candidate_eq_ok_iff.1 hf).1
    rw [(mem_relationsFrom.1 hr).2.1, hb] at hs
    exact ⟨c, hc, (Option.some.inj hs).symm⟩
  · rintro ⟨c, hc, rfl⟩
    obtain ⟨r, hr, hf⟩ := mem_of_mapM_ok h c hc
    have hs := (candidate_eq_ok_iff.1 hf).1
    rw [(mem_relationsFrom.1 hr).2.1] at hs
    exact ⟨r, hr, hs⟩

theorem Distance.unique (hm : graph.Distance problem first m s)
    (hn : graph.Distance problem first n s) : m = n := by
  rcases lt_trichotomy m n with h | h | h
  · exact absurd hm.1 (hn.2 m h)
  · exact h
  · exact absurd hn.1 (hm.2 n h)

theorem within_iff : graph.Within problem first n s ↔
    ∃ m ≤ n, graph.Distance problem first m s := by
  classical
  constructor
  · rintro ⟨m, hm, hr⟩
    have he : ∃ k, graph.Reaches problem first k s := ⟨m, hr⟩
    exact ⟨Nat.find he, Nat.le_trans (Nat.find_min' he hr) hm, Nat.find_spec he,
      fun k hk => Nat.find_min he hk⟩
  · rintro ⟨m, hm, hd⟩
    exact ⟨m, hm, hd.1⟩

theorem distance_zero_iff : graph.Distance problem first 0 s ↔ s = first :=
  ⟨fun h => h.1, fun h => ⟨h, fun _ hm => absurd hm (Nat.not_lt_zero _)⟩⟩

theorem within_zero_iff : graph.Within problem first 0 s ↔ s = first := by
  simp [within_iff, distance_zero_iff]

/-- Before a step at a distance stands one that is one nearer. -/
theorem Distance.pred (h : graph.Distance problem first (n + 1) s) :
    ∃ a, graph.Distance problem first n a ∧ graph.Leads problem a s := by
  obtain ⟨⟨a, ha, hl⟩, hn⟩ := h
  exact ⟨a, ⟨ha, fun m hm hr => hn (m + 1) (by omega) ⟨a, hr, hl⟩⟩, hl⟩

theorem distance_succ_iff : graph.Distance problem first (n + 1) s ↔
    ¬ graph.Within problem first n s ∧
      ∃ a, graph.Distance problem first n a ∧ graph.Leads problem a s := by
  constructor
  · intro h
    exact ⟨fun ⟨m, hm, hr⟩ => h.2 m (by omega) hr, h.pred⟩
  · rintro ⟨hw, a, ha, hl⟩
    exact ⟨⟨a, ha.1, hl⟩, fun m hm hr => hw ⟨m, by omega, hr⟩⟩

theorem within_succ_iff : graph.Within problem first (n + 1) s ↔
    graph.Within problem first n s ∨ graph.Distance problem first (n + 1) s := by
  rw [within_iff, within_iff]
  constructor
  · rintro ⟨m, hm, hd⟩
    rcases Nat.lt_or_ge n m with h | h
    · obtain rfl : m = n + 1 := by omega
      exact .inr hd
    · exact .inl ⟨m, h, hd⟩
  · rintro (⟨m, hm, hd⟩ | hd)
    · exact ⟨m, by omega, hd⟩
    · exact ⟨n + 1, le_rfl, hd⟩

/-- Where nothing is at a distance, nothing is further away. -/
theorem Distance.exists_of_le (h : graph.Distance problem first n s) (hm : m ≤ n) :
    ∃ a, graph.Distance problem first m a := by
  induction n generalizing s with
  | zero => exact ⟨s, by rwa [Nat.le_zero.1 hm]⟩
  | succ n ih =>
    rcases Nat.lt_or_ge n m with hn | hn
    · obtain rfl : m = n + 1 := by omega
      exact ⟨s, h⟩
    · obtain ⟨a, ha, -⟩ := h.pred
      exact ih ha hn

end Playbook.LocalGraph
