import Playbook.Proofs.Course
import Playbook.Proofs.Search

/-!
# Walks of a valid problem

Where an audit that goes far enough finds a problem valid, no walk of it is without a first step or
gets stuck at a query (`run_unstuck`). A walk goes only where relations lead, so it stands on steps
that the audit has taken in, and those with nothing after them reply.
-/

namespace Playbook

variable {τ : Type} {graph : LocalGraph} {problem : Option String}

theorem Datum.toValue_error {d : Datum} {f : Fault} (h : d.toValue = .error f) :
    f.kind = .overflow ∨ f.kind = .invalidOperation ∨ f.kind = .invalidValue := by
  unfold Datum.toValue at h
  split at h
  · cases h
  · unfold Datum.ofDecimal at h
    split at h
    · split at h <;> cases h
    · cases h
      exact .inl rfl
    · cases h
    · cases h
      exact .inr (.inl rfl)
  · cases h
  · cases h
  · cases h
  · cases h
    exact .inr (.inr rfl)

theorem Context.convert_error {f : Fault} :
    ∀ {entries : List (String × Datum)}, convert entries = .error f →
      f.kind = .overflow ∨ f.kind = .invalidOperation ∨ f.kind = .invalidValue
  | [], h => by cases h
  | (name, d) :: rest, h => by
    simp only [convert, bind, Except.bind] at h
    split at h
    · rename_i hd
      cases h
      exact Datum.toValue_error hd
    · split at h
      · rename_i hr
        cases h
        exact convert_error hr
      · cases h

theorem Context.ofData_error {data : OrderedMap String Datum} {f : Fault}
    (h : ofData data = .error f) :
    f.kind = .overflow ∨ f.kind = .invalidOperation ∨ f.kind = .invalidValue := by
  unfold ofData at h
  rcases hc : convert data.entries with f' | values <;> rw [hc] at h <;> cases h
  exact convert_error hc

namespace Traversal

variable {lookup : LookupSource τ}

theorem Moves.leads {a b : Place Unit τ} (h : Moves ⟨graph.source, lookup⟩ problem a b) :
    graph.Leads problem a.step b.step := by
  obtain ⟨-, -, hr, first, -⟩ := h
  exact (LocalGraph.leads_iff (Prod.mk.inj hr).1).2 ⟨_, first.mem, rfl⟩

theorem Trail.reaches {first : Step} {a last : Place Unit τ} {trail : List (Place Unit τ)}
    (h : Trail ⟨graph.source, lookup⟩ problem a trail last) (m : Nat)
    (ha : graph.Reaches problem first m a.step) :
    ∃ n, graph.Reaches problem first n last.step := by
  induction h generalizing m with
  | here => exact ⟨m, ha⟩
  | move hm _ ih => exact ih (m + 1) ⟨_, ha, hm.leads⟩

end Traversal

open Traversal

/-- An audit that answers with a valid report has found a first step, and each step that it has
taken in has something after it or replies. -/
theorem Audit.isReply_of_valid {depth : Nat} {p : Problem} {report : Report}
    (h : Audit.problem graph.source depth p () = (.ok report, ())) (hv : report.valid = true) :
    ∃ first, graph.firstStep p.id = .ok first ∧
      ∀ s, graph.Within p.id first depth s → Terminal graph p.id s → s.isReply = true := by
  rcases hf : graph.firstStep p.id with f | first
  · unfold Audit.problem at h
    simp only [LocalGraph.source, hf] at h
    split_ifs at h
    · cases h
      cases hv
    · cases h
  · refine ⟨first, rfl, fun s hs ht => ?_⟩
    obtain ⟨⟨⟨stops, he, hmem, -⟩, -, hvalid⟩, -⟩ := exact_of_eq_ok hf h
    have hm : label s ∈ report.ends :=
      he ▸ List.mem_map_of_mem ((hmem s).2 ⟨ht, LocalGraph.within_iff.1 hs⟩)
    simpa [Step.isReply, label] using (hvalid.1 hv).2.1 _ hm

/-- Where every step that can be reached has something after it or replies, no walk stops for want
of a first or a next step. -/
theorem Traversal.walk_unstuck {first : Step} {strict : Bool}
    {answer : Option String → String → Attempt τ Value}
    (hreply : ∀ s n, graph.Reaches problem first n s →
      Audit.Terminal graph problem s → s.isReply = true)
    (limit left : Nat) (progress : Progress) (world : Unit × τ) {stop : Stop}
    (h : (walk ⟨graph.source, .running strict answer⟩ problem limit left first progress world).1 =
      .stopped stop) :
    stop.reason ≠ "no first step" ∧ stop.reason ≠ "no next step" := by
  cases left with
  | zero =>
    cases h
    simp [Stop.reason, Fault.kind, Kind.reason]
  | succ left =>
    obtain ⟨trail, last, ht, -, hh | ⟨-, b, -, hw⟩⟩ :=
      walk_trail ⟨graph.source, .running strict answer⟩ problem limit left ⟨first, progress, world⟩
    · obtain ⟨n, hn⟩ := ht.reaches 0 rfl
      rcases hw : walk ⟨graph.source, .running strict answer⟩ problem limit (left + 1) first
        progress world with ⟨ending, progress', world'⟩
      rw [hw] at h hh
      cases h
      rcases hh.reason graph.source_failsOnly with hm | ⟨⟨hq, g, hc⟩, -⟩ | ⟨kind, hk, hm⟩
      · constructor <;> rintro he <;> simp [he] at hm
      · -- A query with nothing after it would be a reply.
        have hr := hreply _ n hn ((LocalGraph.candidates_nil_iff (Prod.mk.inj hc).1).1 rfl)
        simp [Step.not_isReply_of_isQuery hq] at hr
      · simp only [List.mem_cons, List.not_mem_nil, or_false] at hk
        rw [hm]
        rcases hk with rfl | rfl <;> decide
    · simp only at hw
      rw [hw] at h
      cases h
      simp [Stop.reason, Fault.kind, Kind.reason]

/-- A walk of a problem that an audit found valid is never interrupted for want of a first or a
next step, if every step that the first one leads to lies within the depth of the audit. -/
theorem Traversal.run_unstuck (graph : LocalGraph) (p : Problem) (depth : Nat) {report : Report}
    (hr : Audit.problem graph.source depth p () = (.ok report, ())) (hv : report.valid = true)
    (hd : ∀ first s n, graph.firstStep p.id = .ok first → graph.Reaches p.id first n s →
      graph.Within p.id first depth s)
    (strict : Bool) (answer : Option String → String → Attempt τ Value) (limit : Nat)
    (data : OrderedMap String Datum) (world : Unit × τ) :
    let outcome := (run ⟨graph.source, .running strict answer⟩ limit p.id data world).1
    outcome.reason? ≠ some "no first step" ∧ outcome.reason? ≠ some "no next step" := by
  intro outcome
  obtain ⟨first, hf, hreply⟩ := Audit.isReply_of_valid hr hv
  rcases hc : Context.ofData data with f | context
  · have houtcome : outcome = .refused data f := by simp only [outcome, run, hc]
    rw [houtcome]
    rcases Context.ofData_error hc with hk | hk | hk <;>
      simp [Outcome.reason?, Outcome.stop?, Stop.reason, hk, Kind.reason]
  · have hs : graph.source.firstStep p.id world.1 = (.ok first, ()) := by
      simp only [LocalGraph.source, hf]
    rcases hw : walk ⟨graph.source, .running strict answer⟩ p.id limit limit first
      (.initial context) ((), world.2) with ⟨ending, progress, w⟩
    have houtcome : outcome = .ended ending progress :=
      congrArg Prod.fst (run_of_firstStep hc hs hw)
    rw [houtcome]
    cases ending with
    | replied => simp [Outcome.reason?, Outcome.stop?]
    | stopped stop =>
      have h := walk_unstuck (fun s n hn => hreply s (hd first s n hf hn)) limit limit
        (.initial context) ((), world.2) (congrArg Prod.fst hw)
      simpa [Outcome.reason?, Outcome.stop?] using h

/-- No walk of a valid playbook with a cycle gets stuck; here one that may go on for ten steps. -/
theorem run_unstuck_refunds :
    let graph := LocalGraph.refunds
    let p : Problem := ⟨some "refund", some "refund", none, true⟩
    let report : Report := ⟨p.id, p.type, true, [(some 3, some replyOperation)], []⟩
    let systems : SqlSystems := .ofRegistered .empty none false .empty
    let outcome := (run ⟨graph.source, .running systems.strict systems.run⟩ 10 p.id
      (.ofEntries [("id", .int 7)]) ((), .fresh)).1
    Audit.problem graph.source 1 p () = (.ok report, ()) ∧ report.valid = true ∧
      (∀ first s n, graph.firstStep p.id = .ok first → graph.Reaches p.id first n s →
        graph.Within p.id first 1 s) ∧
      outcome.reason? ≠ some "no first step" ∧ outcome.reason? ≠ some "no next step" := by
  intro graph p report systems outcome
  have hr : Audit.problem graph.source 1 p () = (.ok report, ()) := rfl
  have hd : ∀ first s n, graph.firstStep p.id = .ok first → graph.Reaches p.id first n s →
      graph.Within p.id first 1 s := by
    intro first s n hf hs
    cases hf
    have hm : s ∈ [LocalGraph.refunds.lookup, LocalGraph.refunds.paid,
        LocalGraph.refunds.nothing] := LocalGraph.Reaches.mem (by decide) (by decide) hs
    have hl : ∀ b ∈ [LocalGraph.refunds.paid, LocalGraph.refunds.nothing],
        graph.Leads p.id LocalGraph.refunds.lookup b := by decide
    rcases List.mem_cons.1 hm with rfl | hm
    · exact ⟨0, by decide, rfl⟩
    · exact ⟨1, le_rfl, _, rfl, hl s hm⟩
  exact ⟨hr, rfl, hd, run_unstuck graph p 1 hr rfl hd systems.strict systems.run 10 _ _⟩

end Playbook
