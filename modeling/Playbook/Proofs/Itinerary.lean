import Playbook.Proofs.Unstuck

/-!
# The places of a walk

`itinerary` lists the places that a walk stands on, from the first until it halts or has no step
left. Their keys are the steps that it visits (`walk_visited`), and each moves to the next
(`moves_of_itinerary`). With more steps to visit a walk that has halted is the same, and one that
has met its limit goes on from the place it was about to visit (`walk_more`). What lookups only add
to, such as a log, a walk only adds to (`walk_grows`).
-/

namespace Playbook

variable {γ τ : Type}

/-- A part of the state of a service that its lookups only add to. -/
def LookupSource.Grows {ε : Type} (lookup : LookupSource τ) (log : τ → List ε) : Prop :=
  ∀ system table field condition t, log t <+: log (lookup.scalar system table field condition t).2

namespace Traversal

/-- The place that a walk moves on to, if it does. -/
def Place.next? (services : Services γ τ) (problem : Option String) (place : Place γ τ) :
    Option (Place γ τ) :=
  if place.step.isQuery then
    match lookUp services.lookup place.step (Progress.visit place.progress place.step)
      place.world.2 with
    | (some _, _, _) => none
    | (none, progress, t) =>
      match next services.graph problem place.step progress.context place.world.1 with
      | (.error _, _) => none
      | (.ok following, g) => some ⟨following, progress, (g, t)⟩
  else none

/-- The places that a walk stands on, with so many steps left to visit. -/
def itinerary (services : Services γ τ) (problem : Option String) :
    Nat → Place γ τ → List (Place γ τ)
  | 0, _ => []
  | left + 1, place =>
    match place.next? services problem with
    | some following => place :: itinerary services problem left following
    | none => [place]

/-- The places that a run stands on, in order. -/
def places (services : Services γ τ) (limit : Nat) (problem : Option String)
    (data : OrderedMap String Datum) (world : γ × τ) : List (Place γ τ) :=
  match Context.ofData data, services.graph.firstStep problem world.1 with
  | .ok context, (.ok first, g) =>
    itinerary services problem limit ⟨first, .initial context, (g, world.2)⟩
  | _, _ => []

variable {services : Services γ τ} {problem : Option String} {a b : Place γ τ}

theorem next?_eq_some_iff : a.next? services problem = some b ↔ Moves services problem a b := by
  obtain ⟨step, progress, g, t⟩ := a
  constructor
  · intro h
    unfold Place.next? at h
    split_ifs at h with hq
    split at h
    · cases h
    · rename_i progress' t' hl
      split at h
      · cases h
      · rename_i following g' hn
        cases h
        obtain ⟨candidates, chosen, hc, hf, hw, rfl⟩ := next_eq_ok_iff.1 hn
        exact .follow hq (lookUp_eq_none_iff.1 hl) hc hf hw
  · rintro ⟨hq, hl, hc, hf, hw⟩
    simp only [Place.next?, hq, if_true, lookUp_eq_none_iff.2 hl,
      next_eq_ok_iff.2 ⟨_, _, hc, hf, hw, rfl⟩]

theorem Halts.next?_eq_none {r : Ending × Progress × (γ × τ)} (h : Halts services problem a r) :
    a.next? services problem = none := by
  rcases hn : a.next? services problem with _ | b
  · rfl
  · exact absurd (next?_eq_some_iff.1 hn) h.not_moves

theorem itinerary_of_moves (h : Moves services problem a b) (left : Nat) :
    itinerary services problem (left + 1) a = a :: itinerary services problem left b := by
  simp only [itinerary, next?_eq_some_iff.2 h]

theorem itinerary_of_halts {r : Ending × Progress × (γ × τ)} (h : Halts services problem a r)
    (left : Nat) : itinerary services problem (left + 1) a = [a] := by
  simp only [itinerary, h.next?_eq_none]

theorem itinerary_zero (left : Nat) : (itinerary services problem (left + 1) a)[0]? = some a := by
  unfold itinerary
  split <;> rfl

theorem eq_of_itinerary_zero {left : Nat} (h : (itinerary services problem left a)[0]? = some b) :
    b = a := by
  cases left with
  | zero => cases h
  | succ left => exact Option.some.inj (h.symm.trans (itinerary_zero left))

theorem moves_of_itinerary {left n : Nat} {p q : Place γ τ}
    (hp : (itinerary services problem left a)[n]? = some p)
    (hq : (itinerary services problem left a)[n + 1]? = some q) : Moves services problem p q := by
  induction left generalizing a n with
  | zero => cases hp
  | succ left ih =>
    rcases moves_or_halts services problem a with ⟨b, hm⟩ | ⟨r, hr⟩
    · rw [itinerary_of_moves hm] at hp hq
      cases n with
      | zero =>
        cases hp
        rw [eq_of_itinerary_zero hq]
        exact hm
      | succ n => exact ih hp hq
    · rw [itinerary_of_halts hr] at hq
      cases hq

theorem forall_itinerary {P : Place γ τ → Prop} {left : Nat} (ha : P a)
    (hP : ∀ p ∈ itinerary services problem left a, ∀ q, Moves services problem p q → P p → P q) :
    ∀ p ∈ itinerary services problem left a, P p := by
  induction left generalizing a with
  | zero => exact fun p hp => absurd hp List.not_mem_nil
  | succ left ih =>
    intro p hp
    rcases moves_or_halts services problem a with ⟨b, hm⟩ | ⟨r, hr⟩
    · rw [itinerary_of_moves hm] at hp hP
      rcases List.mem_cons.1 hp with rfl | hp
      · exact ha
      · exact ih (hP a List.mem_cons_self b hm ha)
          (fun p hp => hP p (List.mem_cons_of_mem _ hp)) p hp
    · rw [itinerary_of_halts hr] at hp
      rw [List.mem_singleton.1 hp]
      exact ha

/-- A walk visits the steps of its itinerary. -/
theorem walk_visited (limit left : Nat) (a : Place γ τ) :
    (walk services problem limit left a.step a.progress a.world).2.1.visited =
      a.progress.visited ++ (itinerary services problem left a).map (·.step.key) := by
  induction left generalizing a with
  | zero => simp [walk, itinerary]
  | succ left ih =>
    rcases moves_or_halts services problem a with ⟨b, hm⟩ | ⟨⟨ending, progress, world⟩, hr⟩
    · rw [walk_of_moves hm, itinerary_of_moves hm, ih, hm.visited]
      simp
    · rw [walk_of_halts hr, itinerary_of_halts hr]
      exact hr.visited

theorem visit_prefix_walk (limit left : Nat) (a : Place γ τ) :
    (Progress.visit a.progress a.step).visited <+:
      (walk services problem limit (left + 1) a.step a.progress a.world).2.1.visited := by
  rw [walk_visited]
  refine (List.prefix_append_right_inj _).2 ?_
  unfold itinerary
  split
  · exact List.prefix_append [a.step.key] _
  · exact List.prefix_rfl

/-- Where a run of a playbook in memory starts. -/
def Place.start (first : Step) (context : Context) (t : τ) : Place Unit τ :=
  ⟨first, .initial context, ((), t)⟩

/-- What a run answers for its walk. -/
def finish (r : Ending × Progress × (γ × τ)) : Outcome × (γ × τ) :=
  (.ended r.1 r.2.1, r.2.2)

/-- A run of a playbook in memory is over without a step, for a reason other than its limit or a
lookup, or it is the walk from a first step. -/
theorem run_cases (graph : LocalGraph) (problem : Option String) (data : OrderedMap String Datum) :
    (∃ outcome : Outcome,
      (∀ kind ∈ [Kind.stepLimitExceeded, .lookupFailed], outcome.reason? ≠ some kind.reason) ∧
      ∀ {τ : Type} (lookup : LookupSource τ) (limit : Nat) (t : τ),
        run ⟨graph.source, lookup⟩ limit problem data ((), t) = (outcome, ((), t)) ∧
        places ⟨graph.source, lookup⟩ limit problem data ((), t) = []) ∨
    ∃ first context, graph.Holds first ∧
      ∀ {τ : Type} (lookup : LookupSource τ) (limit : Nat) (t : τ),
        let a := Place.start first context t
        run ⟨graph.source, lookup⟩ limit problem data ((), t) =
          finish (walk ⟨graph.source, lookup⟩ problem limit limit a.step a.progress a.world) ∧
        places ⟨graph.source, lookup⟩ limit problem data ((), t) =
          itinerary ⟨graph.source, lookup⟩ problem limit a := by
  rcases hd : Context.ofData data with f | context
  · refine .inl ⟨.refused data f, fun kind hk => ?_, fun lookup limit t => ?_⟩
    · rw [Ne, Outcome.reason?_eq_iff hk]
      rintro ⟨f', he, rfl⟩
      cases he
      rcases Context.ofData_error hd with hf | hf | hf <;> simp [hf] at hk
    · simp only [run, places, hd, and_self]
  rcases hf : graph.firstStep problem with f | first
  · refine .inl ⟨.ended (.stopped (if f.kind = .notFound then .noFirstStep f else .fault f))
      (.initial context), fun kind hk => ?_, fun lookup limit t => ?_⟩
    · have hs : graph.source.firstStep problem () = (.error f, ()) := Prod.ext hf rfl
      have hkind := graph.source_failsOnly.firstStep hs
      rw [Ne, Outcome.reason?_eq_iff hk]
      rintro ⟨f', he, rfl⟩
      simp only [Outcome.stop?, Option.some.injEq] at he
      split_ifs at he
      cases he
      simp only [List.mem_cons, List.not_mem_nil, or_false] at hk hkind
      rcases hkind with h | h <;> simp [h] at hk
    · simp only [run, places, start, hd, LocalGraph.source, hf, and_self]
  · refine .inr ⟨first, context, (LocalGraph.holds_of_firstStep hf).1, fun lookup limit t => ?_⟩
    simp only [run, places, start, hd, LocalGraph.source, hf]
    exact ⟨rfl, rfl⟩

theorem run_visited (services : Services γ τ) (limit : Nat) (problem : Option String)
    (data : OrderedMap String Datum) (world : γ × τ) :
    (run services limit problem data world).1.visited =
      (places services limit problem data world).map (·.step.key) := by
  unfold run places
  rcases Context.ofData data with f | context
  · rfl
  dsimp only
  unfold start
  rcases services.graph.firstStep problem world.1 with ⟨f | first, g⟩
  · rfl
  · exact walk_visited limit limit ⟨first, .initial context, (g, world.2)⟩

/-- With more steps left, a walk that has not met its limit is the same, and one that has goes on
from the place that it would have visited next. -/
theorem walk_more (limit limit' left more : Nat) (a : Place γ τ) :
    let shorter := walk services problem limit left a.step a.progress a.world
    let longer := walk services problem limit' (left + more) a.step a.progress a.world
    (longer = shorter ∧ ∃ last, Halts services problem last shorter) ∨
      ∃ b : Place γ τ, shorter =
          (.stopped (.fault (.stepLimitExceeded problem limit)), b.progress, b.world) ∧
        b.progress.visited.length = a.progress.visited.length + left ∧
        longer = walk services problem limit' more b.step b.progress b.world := by
  induction left generalizing a with
  | zero =>
    refine .inr ⟨a, rfl, rfl, ?_⟩
    rw [Nat.zero_add]
  | succ left ih =>
    rw [Nat.add_right_comm]
    rcases moves_or_halts services problem a with ⟨b, hm⟩ | ⟨r, hr⟩
    · simp only [walk_of_moves hm]
      refine (ih b).imp_right ?_
      rintro ⟨c, hs, hv, hl⟩
      refine ⟨c, hs, ?_, hl⟩
      rw [hv, hm.visited, List.length_append, List.length_singleton]
      omega
    · refine .inl ⟨?_, a, ?_⟩
      · rw [walk_of_halts hr, walk_of_halts hr]
      · rwa [walk_of_halts hr]

section Grows

variable {ε : Type} {log : τ → List ε}

theorem lookUp_grows {lookup : LookupSource τ} (h : lookup.Grows log) (step : Step)
    (progress : Progress) (t : τ) : log t <+: log (lookUp lookup step progress t).2.2 := by
  unfold lookUp
  split
  · exact List.prefix_rfl
  · split_ifs
    · exact List.prefix_rfl
    · split
      · exact List.prefix_rfl
      · exact List.prefix_rfl
      · rename_i condition _
        have hs := h step.system step.table step.field condition t
        split <;> rename_i hr <;> rw [hr] at hs
        · exact hs
        · dsimp only
          split <;> exact hs

theorem LookedUp.grows {lookup : LookupSource τ} (h : lookup.Grows log) {step : Step}
    {progress progress' : Progress} {t t' : τ} (hl : LookedUp lookup step progress t progress' t') :
    log t <+: log t' := by
  have hg := lookUp_grows h step progress t
  rwa [lookUp_eq_none_iff.2 hl] at hg

theorem Moves.grows (h : services.lookup.Grows log) (hm : Moves services problem a b) :
    log a.world.2 <+: log b.world.2 := by
  obtain ⟨-, hl, -, -⟩ := hm
  exact hl.grows h

theorem Halts.grows (h : services.lookup.Grows log) {r : Ending × Progress × (γ × τ)}
    (hr : Halts services problem a r) : log a.world.2 <+: log r.2.2.2 := by
  cases hr with
  | reply => exact List.prefix_rfl
  | unsupported => exact List.prefix_rfl
  | @lookUp step progress _ _ t _ _ _ hf =>
    have hg := lookUp_grows h step (Progress.visit progress step) t
    rwa [hf] at hg
  | next _ hl => exact hl.grows h

/-- A walk only adds to what its lookups only add to. -/
theorem walk_grows (h : services.lookup.Grows log) (limit left : Nat) (a : Place γ τ) :
    log a.world.2 <+: log (walk services problem limit left a.step a.progress a.world).2.2.2 := by
  induction left generalizing a with
  | zero => exact List.prefix_rfl
  | succ left ih =>
    rcases moves_or_halts services problem a with ⟨b, hm⟩ | ⟨r, hr⟩
    · rw [walk_of_moves hm]
      exact (hm.grows h).trans (ih b)
    · rw [walk_of_halts hr]
      exact hr.grows h

theorem walk_grows_of_lookUp (h : services.lookup.Grows log) (hq : a.step.isQuery = true)
    {progress : Progress} {t : τ}
    (hl : lookUp services.lookup a.step (Progress.visit a.progress a.step) a.world.2 =
      (none, progress, t)) (limit left : Nat) :
    log t <+:
      log (walk services problem limit (left + 1) a.step a.progress a.world).2.2.2 := by
  rcases moves_or_halts services problem a with ⟨b, hm⟩ | ⟨r, hr⟩
  · rw [walk_of_moves hm]
    refine List.IsPrefix.trans ?_ (walk_grows h limit left b)
    obtain ⟨-, hl', -, -⟩ := hm
    rw [lookUp_eq_none_iff.2 hl'] at hl
    cases hl
    exact List.prefix_rfl
  · rw [walk_of_halts hr]
    cases hr with
    | reply hs => simp [Step.not_isReply_of_isQuery hq] at hs
    | unsupported _ hn => simp [hq] at hn
    | lookUp _ hf =>
      rw [hl] at hf
      cases hf
    | next _ hl' =>
      rw [lookUp_eq_none_iff.2 hl'] at hl
      cases hl
      exact List.prefix_rfl

end Grows

end Traversal

end Playbook
