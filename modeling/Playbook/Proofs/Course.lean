import Playbook.Proofs.LocalReads

/-!
# The course of a run

A run with a first step goes along exactly one trail from it (`run_along_trail`). It is completed
just when the last place of the trail replies, and meets its limit just when the trail is as long
as it may be and could go on. It ends in one of the ways of `Ends`: each way in which a run is
stopped has a condition of its own (`Stops`), and a number that a run has to tell of but cannot
write is among them. The reads of the graph may change it, and so may lookups change what they ask:
each place of a trail has the graph and the service as they are on arrival.
-/

namespace Playbook

variable {γ τ : Type}

namespace Traversal

/-- Why a reply step gives no reply. -/
inductive Unanswered (step : Step) (context : Context) : Stop → Prop
  | unstated (none : step.reply.getD "" = "") (told : step.Writable) :
      Unanswered step context .missingReply
  | untold (none : step.reply.getD "" = "") (untold : ¬ step.Writable) :
      Unanswered step context (.fault .integerTooLong)
  | unbound {template name : String} (stated : step.reply = some template)
      (nonempty : template ≠ "")
      (missing : Template.render template context = .error (.missingVariable name)) :
      Unanswered step context (.replyVariable name)
  | tooLong {template : String} (stated : step.reply = some template) (nonempty : template ≠ "")
      (tooLong : Template.render template context = .error .integerTooLong) :
      Unanswered step context (.fault .integerTooLong)

/-- Why the lookup of a step is not done, and what is known then. A value that cannot be written is
kept all the same. -/
inductive Unlooked (lookup : LookupSource τ) (step : Step) (progress : Progress) (t : τ) :
    Stop → Progress → τ → Prop
  | untold (unstated : step.condition.getD "" = "") (untold : ¬ step.Writable) :
      Unlooked lookup step progress t (.fault .integerTooLong) progress t
  | unbound {template name : String} (stated : step.condition = some template)
      (nonempty : template ≠ "")
      (missing : Template.render template progress.context = .error (.missingVariable name)) :
      Unlooked lookup step progress t (.queryVariable name) progress t
  | tooLong {template : String} (stated : step.condition = some template)
      (nonempty : template ≠ "")
      (tooLong : Template.render template progress.context = .error .integerTooLong) :
      Unlooked lookup step progress t (.fault .integerTooLong) progress t
  | failed {template condition : String} {f : Fault} {t' : τ}
      (stated : step.condition = some template) (nonempty : template ≠ "")
      (rendered : Template.render template progress.context = .ok condition)
      (failed : lookup.scalar step.system step.table step.field condition t = (.error f, t')) :
      Unlooked lookup step progress t (.fault f) progress t'
  | unwritten {template condition : String} {v : Value} {t' : τ}
      (stated : step.condition = some template) (nonempty : template ≠ "")
      (rendered : Template.render template progress.context = .ok condition)
      (scalar : lookup.scalar step.system step.table step.field condition t = (.ok v, t'))
      (unwritten : v.format = .error .integerTooLong) :
      Unlooked lookup step progress t (.fault .integerTooLong)
        (Progress.keep progress step.field v) t'

/-- Why a run is stopped at a place, what is known then, and the graph and the service as they
are left. -/
inductive Stops (services : Services γ τ) (problem : Option String) :
    Place γ τ → Stop → Progress → γ × τ → Prop
  | reply {step : Step} {progress : Progress} {w : γ × τ} {stop : Stop}
      (replies : step.isReply = true) (unanswered : Unanswered step progress.context stop) :
      Stops services problem ⟨step, progress, w⟩ stop (Progress.visit progress step) w
  | unsupported {step : Step} {progress : Progress} {w : γ × τ} (reply : step.isReply = false)
      (query : step.isQuery = false) :
      Stops services problem ⟨step, progress, w⟩ .unsupportedOperation
        (Progress.visit progress step) w
  | lookUp {step : Step} {progress progress' : Progress} {g : γ} {t t' : τ} {stop : Stop}
      (query : step.isQuery = true)
      (unlooked : Unlooked services.lookup step (Progress.visit progress step) t stop progress'
        t') :
      Stops services problem ⟨step, progress, (g, t)⟩ stop progress' (g, t')
  | unread {step : Step} {progress progress' : Progress} {g g' : γ} {t t' : τ} {f : Fault}
      (query : step.isQuery = true)
      (looked : LookedUp services.lookup step (Progress.visit progress step) t progress' t')
      (unread : services.graph.candidates problem step.id g = (.error f, g')) :
      Stops services problem ⟨step, progress, (g, t)⟩ (.fault f) progress' (g', t')
  | strands {step : Step} {progress progress' : Progress} {g g' : γ} {t t' : τ}
      {candidates : List Candidate} {f : Fault} (query : step.isQuery = true)
      (looked : LookedUp services.lookup step (Progress.visit progress step) t progress' t')
      (read : services.graph.candidates problem step.id g = (.ok candidates, g'))
      (strands : Strands step candidates progress'.context f) :
      Stops services problem ⟨step, progress, (g, t)⟩ (.fault f) progress' (g', t')

/-- How a run ends at the last place of a trail of some length. -/
inductive Ends (services : Services γ τ) (problem : Option String) (limit length : Nat)
    (last : Place γ τ) : Ending → Progress → γ × τ → Prop
  | replied {message : String} (replies : last.step.Replies last.progress.context message) :
      Ends services problem limit length last (.replied message)
        (Progress.visit last.progress last.step) last.world
  | stopped {stop : Stop} {progress : Progress} {world : γ × τ}
      (stops : Stops services problem last stop progress world) :
      Ends services problem limit length last (.stopped stop) progress world
  | limited {next : Place γ τ} (moves : Moves services problem last next)
      (long : length = limit) :
      Ends services problem limit length last
        (.stopped (.fault (.stepLimitExceeded problem limit))) next.progress next.world

variable {services : Services γ τ} {problem : Option String}

theorem unanswered_of_reply {step : Step} {context : Context} {stop : Stop}
    (h : reply step context = .stopped stop) : Unanswered step context stop := by
  have hnone (hn : step.reply.getD "" = "")
      (he : Ending.stopped ((untold step).getD .missingReply) = .stopped stop) :
      Unanswered step context stop := by
    by_cases hw : step.Writable
    · rw [untold_eq_none_iff.2 hw] at he
      cases he
      exact .unstated hn hw
    · rw [untold_of_not_writable hw] at he
      cases he
      exact .untold hn hw
  unfold reply at h
  split at h
  · next hr => exact hnone (by simp [hr]) h
  · next template hr =>
    split_ifs at h with hne
    · exact hnone (by simp [hr, hne]) h
    split at h
    · cases h
    · next hm =>
      cases h
      exact .unbound hr hne hm
    · next hm he =>
      cases h
      rcases Template.render_error he with ⟨name, rfl⟩ | rfl
      · exact absurd rfl (hm name)
      · exact .tooLong hr hne he

theorem unlooked_of_lookUp {lookup : LookupSource τ} {step : Step} {progress progress' : Progress}
    {t t' : τ} {stop : Stop} (h : lookUp lookup step progress t = (some stop, progress', t')) :
    Unlooked lookup step progress t stop progress' t' := by
  have hnone (hn : step.condition.getD "" = "")
      (he : (untold step, progress, t) = (some stop, progress', t')) :
      Unlooked lookup step progress t stop progress' t' := by
    by_cases hw : step.Writable
    · rw [untold_eq_none_iff.2 hw] at he
      cases he
    · rw [untold_of_not_writable hw] at he
      cases he
      exact .untold hn hw
  unfold lookUp at h
  split at h
  · next hc => exact hnone (by simp [hc]) h
  · next template hc =>
    split_ifs at h with hne
    · exact hnone (by simp [hc, hne]) h
    split at h
    · next hm =>
      cases h
      exact .unbound hc hne hm
    · next hm he =>
      cases h
      rcases Template.render_error he with ⟨name, rfl⟩ | rfl
      · exact absurd rfl (hm name)
      · exact .tooLong hc hne he
    · next condition hr =>
      split at h
      · next hs =>
        cases h
        exact .failed hc hne hr hs
      · next v t'' hs =>
        dsimp only at h
        split at h
        · cases h
        · next hf =>
          cases h
          obtain rfl := Value.format_error hf
          exact .unwritten hc hne hr hs hf

/-- A value that is found but cannot be written is kept, and stops the walk. -/
theorem lookUp_of_unwritten {lookup : LookupSource τ} {step : Step} {progress : Progress}
    {t t' : τ} {template condition : String} {v : Value} {f : Fault}
    (stated : step.condition = some template) (nonempty : template ≠ "")
    (rendered : Template.render template progress.context = .ok condition)
    (scalar : lookup.scalar step.system step.table step.field condition t = (.ok v, t'))
    (unwritten : v.format = .error f) :
    lookUp lookup step progress t = (some (.fault f), Progress.keep progress step.field v, t') := by
  simp only [lookUp, stated, nonempty, if_false, rendered, scalar, unwritten]

/-- Where a walk halts, the step replies or the run is stopped. -/
theorem Halts.ends {a : Place γ τ} {ending : Ending} {progress : Progress} {world : γ × τ}
    (h : Halts services problem a (ending, progress, world)) (limit length : Nat) :
    Ends services problem limit length a ending progress world := by
  generalize hr : (ending, progress, world) = r at h
  cases h with
  | @reply step progress w hs =>
    cases hr
    rcases he : Traversal.reply step progress.context with message | stop
    · exact .replied ((reply_eq_replied_iff hs).1 he)
    · exact .stopped (.reply hs (unanswered_of_reply he))
  | unsupported hs hq =>
    cases hr
    exact .stopped (.unsupported hs hq)
  | lookUp hq hf =>
    cases hr
    exact .stopped (.lookUp hq (unlooked_of_lookUp hf))
  | next hq hl hf =>
    cases hr
    rcases next_error hf with hc | ⟨candidates, hc, hs⟩
    · exact .stopped (.unread hq hl hc)
    · exact .stopped (.strands hq hl hc hs)

theorem Halts.replied_iff {a : Place γ τ} {ending : Ending} {progress : Progress} {world : γ × τ}
    (h : Halts services problem a (ending, progress, world)) {message : String} :
    ending = .replied message ↔ a.step.Replies progress.context message := by
  generalize hr : (ending, progress, world) = r at h
  cases h with
  | reply hs =>
    cases hr
    exact reply_eq_replied_iff hs
  | unsupported hs =>
    cases hr
    simp [Step.Replies, hs]
  | lookUp hq =>
    cases hr
    simp [Step.Replies, Step.not_isReply_of_isQuery hq]
  | next hq =>
    cases hr
    simp [Step.Replies, Step.not_isReply_of_isQuery hq]

theorem Moves.not_replies {a b : Place γ τ} (h : Moves services problem a b) (context : Context)
    (message : String) : ¬ a.step.Replies context message := by
  obtain ⟨hq, -, -, -⟩ := h
  simp [Step.Replies, Step.not_isReply_of_isQuery hq]

end Traversal

open Traversal

theorem Outcome.completed_message_iff {ending : Ending} {progress : Progress} {message : String} :
    (ended ending progress).completed = true ∧ (ended ending progress).message = message ↔
      ending = .replied message := by
  cases ending <;> simp [completed, stop?, Outcome.message]

/-- An outcome, with the graph and the service as they are left, is that of a run along a trail: the
steps visited are those of the trail, it ends in one of the ways in which a run ends there, it is
completed just when the last step replies in the context it ends with, and it has met the limit just
when the trail has as many places and leads on from the last. -/
structure Outcome.Along (services : Services γ τ) (problem : Option String) (limit : Nat)
    (start : Place γ τ) (result : Outcome × (γ × τ)) (trail : List (Place γ τ)) (last : Place γ τ)
    (final : Context) : Prop where
  follows : Trail services problem start trail last
  data : result.1.data = final.toData
  visited : result.1.visited = trail.map (·.step.key)
  bounded : trail.length ≤ limit
  ends : ∃ ending progress, result.1 = ended ending progress ∧
    Ends services problem limit trail.length last ending progress result.2
  completed (message : String) : result.1.completed = true ∧ result.1.message = message ↔
    last.step.Replies final message
  limited : result.1.reason? = some "step limit exceeded" ↔
    trail.length = limit ∧ ∃ next, Moves services problem last next

section Along

variable {services : Services γ τ} {problem : Option String} {limit : Nat} {start last : Place γ τ}
  {trail : List (Place γ τ)} (ht : Trail services problem start trail last)
  (hs : start.progress.visited = []) (hlen : trail.length ≤ limit)
include ht hs hlen

theorem Outcome.along_of_halts {ending : Ending} {progress : Progress} {world : γ × τ}
    (h : Halts services problem last (ending, progress, world))
    (hr : ∀ stop, ending = .stopped stop → stop.reason ≠ "step limit exceeded") :
    Along services problem limit start (ended ending progress, world) trail last
      progress.context where
  follows := ht
  data := rfl
  visited := h.visited.trans (by simpa [hs] using ht.visited)
  bounded := hlen
  ends := ⟨ending, progress, rfl, h.ends limit trail.length⟩
  completed _ := completed_message_iff.trans h.replied_iff
  limited := by
    refine iff_of_false ?_ fun ⟨_, _, hm⟩ => h.not_moves hm
    cases ending with
    | replied => simp [reason?, stop?]
    | stopped stop => simpa [reason?, stop?] using hr stop rfl

theorem Outcome.along_of_moves {b : Place γ τ} (h : Moves services problem last b)
    (hl : trail.length = limit) :
    Along services problem limit start
      (ended (.stopped (.fault (.stepLimitExceeded problem limit))) b.progress, b.world) trail last
      b.progress.context where
  follows := ht
  data := rfl
  visited := h.visited.trans (by simpa [hs] using ht.visited)
  bounded := hlen
  ends := ⟨_, _, rfl, .limited h hl⟩
  completed m := completed_message_iff.trans (iff_of_false (by simp) (h.not_replies _ m))
  limited := iff_of_true rfl ⟨hl, b, h⟩

end Along

theorem Outcome.Along.unique {services : Services γ τ} {problem : Option String} {limit : Nat}
    {start last last' : Place γ τ} {trail trail' : List (Place γ τ)} {final final' : Context}
    {result : Outcome × (γ × τ)} (h : Along services problem limit start result trail last final)
    (h' : Along services problem limit start result trail' last' final') : trail = trail' := by
  refine (h.follows.unique h'.follows ?_).1
  simpa using congrArg List.length (h.visited.symm.trans h'.visited)

theorem Traversal.run_of_firstStep {services : Services γ τ} {problem : Option String}
    {limit : Nat} {data : OrderedMap String Datum} {context : Context} {world : γ × τ}
    {first : Step} {g : γ} {ending : Ending} {progress : Progress} {w : γ × τ}
    (hd : Context.ofData data = .ok context)
    (hf : services.graph.firstStep problem world.1 = (.ok first, g))
    (hw : walk services problem limit limit first (.initial context) (g, world.2) =
      (ending, progress, w)) :
    run services limit problem data world = (.ended ending progress, w) := by
  simp only [run, hd, start, hf, hw]

theorem Traversal.walk_along {graph : GraphSource γ}
    (hg : graph.FailsOnly [.notFound, .storageFailed]) (strict : Bool)
    (answer : Option String → String → Attempt τ Value) (problem : Option String) (n : Nat)
    (start : Place γ τ) (hs : start.progress.visited = []) {ending : Ending} {progress : Progress}
    {world : γ × τ}
    (hw : walk ⟨graph, .running strict answer⟩ problem (n + 1) (n + 1) start.step start.progress
      start.world = (ending, progress, world)) :
    ∃ trail last, Outcome.Along ⟨graph, .running strict answer⟩ problem (n + 1) start
      (.ended ending progress, world) trail last progress.context := by
  obtain ⟨trail, last, ht, hlen, he⟩ := walk_trail ⟨graph, .running strict answer⟩ problem (n + 1)
    n start
  rw [hw] at he
  rcases he with hh | ⟨hl, b, hm, he⟩
  · refine ⟨trail, last, Outcome.along_of_halts ht hs hlen hh ?_⟩
    rintro stop rfl hr
    rcases hh.reason hg with h | ⟨-, h⟩ | ⟨kind, hk, h⟩
    · simp [hr] at h
    · simp [hr] at h
    · rw [hr] at h
      simp only [List.mem_cons, List.not_mem_nil, or_false] at hk
      rcases hk with rfl | rfl <;> simp [Kind.reason] at h
  · cases he
    exact ⟨trail, last, Outcome.along_of_moves ht hs hlen hm hl⟩

/-- A run whose graph fails only for want of what is asked for or of its storage goes along exactly
one trail from the first step; without a first step it visits nothing. -/
theorem Traversal.run_along_trail {graph : GraphSource γ}
    (hg : graph.FailsOnly [.notFound, .storageFailed]) (strict : Bool)
    (answer : Option String → String → Attempt τ Value) {limit : Nat} (hl : 1 ≤ limit)
    (problem : Option String) {data : OrderedMap String Datum} {context : Context}
    (hd : Context.ofData data = .ok context) (world : γ × τ) :
    let services : Services γ τ := ⟨graph, .running strict answer⟩
    let result := run services limit problem data world
    (∀ first g, graph.firstStep problem world.1 = (.ok first, g) →
      ∃! trail, ∃ last final, Outcome.Along services problem limit
        ⟨first, .initial context, (g, world.2)⟩ result trail last final) ∧
    ∀ fault g, graph.firstStep problem world.1 = (.error fault, g) →
      result = (.ended (.stopped (if fault.kind = .notFound then .noFirstStep fault
        else .fault fault)) (.initial context), (g, world.2)) ∧
      result.1.visited = [] ∧ result.1.completed = false ∧
        result.1.reason? ≠ some "step limit exceeded" := by
  intro services result
  refine ⟨fun first g hf => ?_, fun fault g hf => ?_⟩
  · obtain ⟨n, rfl⟩ : ∃ n, limit = n + 1 := ⟨limit - 1, by omega⟩
    rcases hw : walk services problem (n + 1) (n + 1) first (.initial context) (g, world.2) with
      ⟨ending, progress, w⟩
    have hresult : result = (.ended ending progress, w) := run_of_firstStep hd hf hw
    obtain ⟨trail, last, halong⟩ :=
      walk_along hg strict answer problem n ⟨first, .initial context, _⟩ rfl hw
    rw [hresult]
    exact ⟨trail, ⟨last, _, halong⟩, fun trail' ⟨_, _, h'⟩ => h'.unique halong⟩
  · have hresult : result = (.ended
        (.stopped (if fault.kind = .notFound then .noFirstStep fault else .fault fault))
        (.initial context), (g, world.2)) := by
      simp only [result, run, hd, start, services, hf]
    rw [hresult]
    refine ⟨rfl, rfl, rfl, ?_⟩
    have hk := hg.firstStep hf
    simp only [List.mem_cons, List.not_mem_nil, or_false] at hk
    rcases hk with hk | hk <;>
      simp [Outcome.reason?, Outcome.stop?, Stop.reason, hk, Kind.reason]

/-- A walk in a playbook with a cycle, with three steps to visit and a strict lookup service; and
one of a problem that the playbook does not know. -/
theorem run_along_trail_refunds :
    let graph := LocalGraph.refunds
    let systems : SqlSystems := .ofRegistered
      (.ofEntries [("shop", .engine (.ofEntries
        [("SELECT amount FROM orders WHERE id = 7", .row (some [.int 50]))]))])
      none true .empty
    let services : Services Unit SqlConnections :=
      ⟨graph.source, .running systems.strict systems.run⟩
    let context : Context := .ofEntries [("id", .int 7)]
    let result (problem : String) := run services 3 (some problem) context.toData ((), .fresh)
    let unknown : Fault := .noFirstStep (some "return")
    graph.source.FailsOnly [.notFound, .storageFailed] ∧ 1 ≤ 3 ∧
      Context.ofData context.toData = .ok context ∧
      (∃! trail, ∃ last final, Outcome.Along services (some "refund") 3
        ⟨LocalGraph.refunds.lookup, .initial context, ((), .fresh)⟩ (result "refund") trail last
        final) ∧
      result "return" = (.ended (.stopped (if unknown.kind = .notFound then .noFirstStep unknown
        else .fault unknown)) (.initial context), ((), .fresh)) ∧
      (result "return").1.visited = [] ∧ (result "return").1.completed = false ∧
        (result "return").1.reason? ≠ some "step limit exceeded" := by
  intro graph systems services context result unknown
  have hg : graph.source.FailsOnly [.notFound, .storageFailed] :=
    LocalGraph.Complete.source_failsOnly (by decide) (by decide)
  have hd : Context.ofData context.toData = .ok context := rfl
  have hl : 1 ≤ 3 := by decide
  have hf : graph.source.firstStep (some "refund") () = (.ok LocalGraph.refunds.lookup, ()) := rfl
  have hn : graph.source.firstStep (some "return") () = (.error unknown, ()) := rfl
  exact ⟨hg, hl, hd,
    (run_along_trail hg systems.strict systems.run hl (some "refund") hd ((), .fresh)).1
      LocalGraph.refunds.lookup () hf,
    (run_along_trail hg systems.strict systems.run hl (some "return") hd ((), .fresh)).2
      unknown () hn⟩

/-- A run of one step looks up a number that cannot be written. The lookup is done and a candidate
is open, but the run is stopped by the number and does not meet its limit. -/
theorem run_along_unwritten :
    let graph : LocalGraph := { LocalGraph.refunds with
      relations := [⟨some "refund", none, some 1, some firstRelation, none⟩,
        ⟨some "refund", some 1, some 1, some defaultRelation, none⟩] }
    let systems (amount : Int) : SqlSystems := .ofRegistered
      (.ofEntries [("shop", .engine (.ofEntries
        [("SELECT amount FROM orders WHERE id = 7", .row (some [.int amount]))]))])
      none true .empty
    let context : Context := .ofEntries [("id", .text "7")]
    let outcome := (run ⟨graph.source, .running true (systems Text.leastUnprinted).run⟩ 1
      (some "refund") context.toData ((), .fresh)).1
    LocalGraph.refunds.lookup.isQuery = true ∧
      outcome.visited = [LocalGraph.refunds.lookup.key] ∧
      outcome.results.get? "amount" = some (.int Text.leastUnprinted) ∧
      (∃ candidates chosen, graph.candidates (some "refund") (some 1) = .ok candidates ∧
        ∀ context, Candidate.FirstOpen context candidates chosen) ∧
      outcome.reason? = some "system error" := by
  have hf : (Value.int Text.leastUnprinted).format = .error .integerTooLong := by
    unfold Value.format
    simp only [Text.printInteger?_leastUnprinted]
  -- Nothing below is to calculate with the number.
  generalize Text.leastUnprinted = amount at hf ⊢
  intro graph systems context outcome
  let step := LocalGraph.refunds.lookup
  let kept := Progress.keep (Progress.visit (.initial context) step) step.field (.int amount)
  have hr : Template.render "WHERE id = \x7bid\x7d"
      (Progress.visit (.initial context) step).context = .ok "WHERE id = 7" := rfl
  obtain ⟨t, hs⟩ : ∃ t, (LookupSource.running true (systems amount).run).scalar step.system
      step.table step.field "WHERE id = 7" .fresh = (.ok (.int amount), t) := ⟨_, rfl⟩
  have hl : lookUp (.running true (systems amount).run) step
      (Progress.visit (.initial context) step) .fresh =
        (some (.fault .integerTooLong), kept, t) :=
    lookUp_of_unwritten rfl (by decide) hr hs hf
  have hhalts : Halts ⟨graph.source, .running true (systems amount).run⟩
      (some "refund") ⟨step, .initial context, ((), .fresh)⟩
      (.stopped (.fault .integerTooLong), kept, ((), t)) := .lookUp rfl hl
  have hd : Context.ofData context.toData = .ok context := rfl
  have hfirst : graph.source.firstStep (some "refund") () = (.ok step, ()) := rfl
  have hw : walk _ _ 1 (0 + 1) _ _ _ = _ := walk_of_halts hhalts
  have houtcome : outcome = .ended (.stopped (.fault .integerTooLong)) kept := by
    simp only [outcome, run, hd, start, hfirst, hw]
  rw [houtcome]
  exact ⟨rfl, rfl, rfl, ⟨[⟨some defaultRelation, none, step⟩], ⟨some defaultRelation, none, step⟩,
    rfl, fun context => ⟨[], [], rfl, .inl rfl, by simp⟩⟩, rfl⟩

end Playbook
