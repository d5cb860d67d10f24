import Playbook.Proofs.Readings
import Playbook.Proofs.RoundingOrder

/-!
# Answers that are kept

A history of readings says which answers still count: those with records that the database gave to
the same statement not too long ago, with no forgetting in between (`RemoteGraph.Held`). On a clock
that does not go back these are the answers that the store keeps and has not let expire
(`held_iff_kept`), whatever the database answers and however long it takes.
-/

namespace Playbook

/-- A statement that was sent, with its parameters and what was answered. -/
structure Exchange where
  statement : Statement
  parameters : List (String × Datum)
  answer : Except Fault (List Record)

section Noted

variable {θ δ : Type}

/-- The same records, with all exchanges noted, the latest first. -/
def RecordSource.noted (records : RecordSource θ δ) : RecordSource θ (δ × List Exchange) where
  ask name statement parameters := fun (outside, exchanges) =>
    let (answer, outside) := records.ask name statement parameters outside
    (answer, outside, ⟨statement, parameters, answer⟩ :: exchanges)
  time s := records.time s.1

def RemoteGraph.noted (graph : RemoteGraph θ δ) : RemoteGraph θ (δ × List Exchange) :=
  ⟨graph.records.noted, graph.database, graph.strict, graph.lifetime⟩

theorem RemoteGraph.noted_ask (graph : RemoteGraph θ δ) {r : Reading} {outside outside' : δ}
    {told : Except Fault (List Record)} (exchanges : List Exchange)
    (ha : graph.records.ask graph.database r.statement r.parameters outside = (told, outside')) :
    graph.noted.records.ask graph.noted.database r.statement r.parameters (outside, exchanges) =
      (told, outside', ⟨r.statement, r.parameters, told⟩ :: exchanges) := by
  simp [noted, RecordSource.noted, ha]

/-- Noting the exchanges changes nothing else. -/
theorem RemoteGraph.ask_noted [Sub θ] [LT θ] [DecidableLT θ] (graph : RemoteGraph θ δ) (r : Reading)
    (s : RemoteState θ (δ × List Exchange)) :
    r.ask graph.source ⟨s.outside.1, s.kept⟩ =
      ((r.ask graph.noted.source s).1,
        ⟨(r.ask graph.noted.source s).2.outside.1, (r.ask graph.noted.source s).2.kept⟩) := by
  by_cases hw : r.Writable
  · have hn : graph.noted.keptAnswer r.name s = graph.keptAnswer r.name ⟨s.outside.1, s.kept⟩ := rfl
    rcases hk : graph.keptAnswer r.name ⟨s.outside.1, s.kept⟩ with _ | rows
    · rcases ha : graph.records.ask graph.database r.statement r.parameters s.outside.1
        with ⟨told, outside⟩
      rw [ask_of_not_kept graph hw hk ha,
        ask_of_not_kept graph.noted hw (hn.trans hk) (graph.noted_ask s.outside.2 ha)]
      rfl
    · rw [ask_of_kept graph hw hk, ask_of_kept graph.noted hw (hn.trans hk)]
  · rw [Reading.ask_of_not_writable graph hw, Reading.ask_of_not_writable graph.noted hw]

end Noted

namespace RemoteGraph

variable {θ δ : Type} [Sub θ] [LT θ] [DecidableLT θ] (graph : RemoteGraph θ δ)

/-- What is done with a store. -/
inductive Visit where
  | read (reading : Reading)
  | forget

/-- The store when what is outside of it has changed. -/
def meeting (outside : δ) (s : RemoteState θ (δ × List Exchange)) :
    RemoteState θ (δ × List Exchange) :=
  { s with outside := (outside, s.outside.2) }

def visit (s : RemoteState θ (δ × List Exchange)) : Visit → RemoteState θ (δ × List Exchange)
  | .read r => (r.ask graph.noted.source s).2
  | .forget => s.forget

variable (start : δ)

/-- The store after a history of visits, the latest first. Each visit comes with what was outside of
the store at its begin. -/
def after : List (δ × Visit) → RemoteState θ (δ × List Exchange)
  | [] => ⟨(start, []), .empty⟩
  | (outside, v) :: past => graph.visit (meeting outside (after past)) v

/-- The exchanges with the database in a history, the latest first. -/
def exchanges (past : List (δ × Visit)) : List Exchange :=
  (graph.after start past).outside.2

/-- When the last visit of a history ended. -/
def ended (past : List (δ × Visit)) : θ :=
  graph.records.time (graph.after start past).outside.1

/-- When the visits of a history began and ended, the latest first. -/
def times : List (δ × Visit) → List θ
  | [] => []
  | (outside, v) :: past =>
    graph.ended start ((outside, v) :: past) :: graph.records.time outside :: times past

/-- Records that still count as the answer to a reading: the database gave them in an earlier visit
to the same statement, nothing was forgotten since, and their time is not over. -/
def Held (past : List (δ × Visit)) (now : θ) (r : Reading) (rows : List Record) : Prop :=
  ∃ later e earlier, past = later ++ e :: earlier ∧ (∀ e' ∈ later, e'.2 ≠ .forget) ∧
    graph.exchanges start (e :: earlier) =
      ⟨r.statement, r.parameters, .ok rows⟩ :: graph.exchanges start earlier ∧
    rows ≠ [] ∧ now - graph.ended start (e :: earlier) < graph.lifetime

section Visits

variable {graph start} {past : List (δ × Visit)} {outside outside' : δ} {r : Reading}
  {rows : List Record} {told : Except Fault (List Record)}

theorem keptAnswer_meeting_iff {name : String} :
    graph.noted.keptAnswer name (meeting outside (graph.after start past)) = some rows ↔
      ∃ born, (graph.after start past).kept.get? name = some (born, rows) ∧
        graph.records.time outside - born < graph.lifetime :=
  keptAnswer_eq_some_iff graph.noted

/-- The reading comes to the database: it can be written, and no answer to it is kept. -/
def Sent (graph : RemoteGraph θ δ) (s : RemoteState θ (δ × List Exchange)) (r : Reading) : Prop :=
  r.Writable ∧ graph.noted.keptAnswer r.name s = none

theorem after_read_of_not_sent (h : ¬ graph.Sent (meeting outside (graph.after start past)) r) :
    graph.after start ((outside, .read r) :: past) = meeting outside (graph.after start past) := by
  rw [after, visit]
  by_cases hw : r.Writable
  · obtain ⟨rows, hk⟩ := Option.ne_none_iff_exists'.1 fun hk => h ⟨hw, hk⟩
    rw [ask_of_kept _ hw hk]
  · rw [Reading.ask_of_not_writable _ hw]

theorem after_read_of_sent (h : graph.Sent (meeting outside (graph.after start past)) r)
    (ha : graph.records.ask graph.database r.statement r.parameters outside = (told, outside')) :
    graph.after start ((outside, .read r) :: past) =
      ⟨(outside', ⟨r.statement, r.parameters, told⟩ :: graph.exchanges start past),
        keeping r (graph.records.time outside') (graph.after start past).kept told⟩ := by
  rw [after, visit, ask_of_not_kept _ h.1 h.2 (graph.noted_ask _ ha)]
  rfl

theorem not_held_nil {now : θ} : ¬graph.Held start [] now r rows := by
  rintro ⟨later, e, earlier, h, -⟩
  simp at h

theorem held_cons {e : δ × Visit} {now : θ} :
    graph.Held start (e :: past) now r rows ↔
      (graph.exchanges start (e :: past) =
          ⟨r.statement, r.parameters, .ok rows⟩ :: graph.exchanges start past ∧
        rows ≠ [] ∧ now - graph.ended start (e :: past) < graph.lifetime) ∨
      (e.2 ≠ .forget ∧ graph.Held start past now r rows) := by
  constructor
  · rintro ⟨later, e', earlier, hp, hf, h⟩
    cases later with
    | nil =>
      cases hp
      exact .inl h
    | cons first later =>
      cases hp
      exact .inr ⟨hf _ List.mem_cons_self, later, e', earlier, rfl,
        fun e he => hf e (List.mem_cons_of_mem _ he), h⟩
  · rintro (h | ⟨he, later, e', earlier, rfl, hf, h⟩)
    · exact ⟨[], e, past, rfl, by simp, h⟩
    · exact ⟨e :: later, e', earlier, rfl, List.forall_mem_cons.2 ⟨he, hf⟩, h⟩

end Visits

section Keeping

variable {graph} {r r' : Reading} {rows : List Record} {told : Except Fault (List Record)}

theorem exchange_inj {exchanges : List Exchange} :
    (⟨r'.statement, r'.parameters, told⟩ :: exchanges : List Exchange) =
      ⟨r.statement, r.parameters, .ok rows⟩ :: exchanges ↔ r = r' ∧ told = .ok rows := by
  constructor
  · intro h
    obtain ⟨hs, hp, ht⟩ := Exchange.mk.inj (List.cons.inj h).1
    exact ⟨Reading.eq_of_statement hs.symm hp.symm, ht⟩
  · rintro ⟨rfl, rfl⟩
    rfl

omit [DecidableLT θ] in
/-- A new answer counts for its own reading and leaves those to the others as they are. -/
theorem get?_keeping_iff {born' now : θ} {kept : OrderedMap String (θ × List Record)}
    (hnot : r = r' → ¬∃ born, kept.get? r.name = some (born, rows) ∧ now - born < graph.lifetime) :
    (∃ born, (keeping r' born' kept told).get? r.name = some (born, rows) ∧
        now - born < graph.lifetime) ↔
      ((r = r' ∧ told = .ok rows) ∧ rows ≠ [] ∧ now - born' < graph.lifetime) ∨
        ∃ born, kept.get? r.name = some (born, rows) ∧ now - born < graph.lifetime := by
  rcases told with f | _ | ⟨row, rest⟩
  · simp [keeping]
  · constructor
    · exact .inr
    · rintro (⟨⟨-, h⟩, hne, -⟩ | h)
      · exact absurd (Except.ok.inj h).symm hne
      · exact h
  · simp only [keeping, OrderedMap.get?_insert]
    by_cases hr : r = r'
    · subst hr
      rw [if_pos rfl]
      constructor
      · rintro ⟨born, h, hb⟩
        cases h
        exact .inl ⟨⟨rfl, rfl⟩, by simp, hb⟩
      · rintro (⟨⟨-, h⟩, -, hb⟩ | h)
        · cases h
          exact ⟨born', rfl, hb⟩
        · exact absurd h (hnot rfl)
    · have hname : r.name ≠ r'.name := fun h => hr (Reading.name_inj h)
      rw [if_neg hname]
      constructor
      · exact .inr
      · rintro (⟨⟨h, -⟩, -⟩ | h)
        · exact absurd h hr
        · exact h

end Keeping

section Clock

variable [LE θ] [Elapses θ] {graph start} {past : List (δ × Visit)}

theorem expired_of_not_kept {outside : δ} {r : Reading} {rows : List Record} {now : θ}
    (hk : graph.noted.keptAnswer r.name (meeting outside (graph.after start past)) = none)
    (hle : graph.records.time outside ≤ now) :
    ¬∃ born, (graph.after start past).kept.get? r.name = some (born, rows) ∧
      now - born < graph.lifetime := by
  rintro ⟨born, hg, hb⟩
  have ha : graph.noted.keptAnswer r.name (meeting outside (graph.after start past)) = some rows :=
    keptAnswer_meeting_iff.2 ⟨born, hg, Elapses.sub_lt_of_le hle hb⟩
  rw [hk] at ha
  cases ha

/-- The records that count are those that are kept and have not expired. -/
theorem held_iff_kept (hp : (graph.times start past).Pairwise fun later earlier => earlier ≤ later)
    {now : θ} (hn : ∀ t ∈ graph.times start past, t ≤ now) (r : Reading) (rows : List Record) :
    graph.Held start past now r rows ↔
      ∃ born, (graph.after start past).kept.get? r.name = some (born, rows) ∧
        now - born < graph.lifetime := by
  induction past generalizing now r rows with
  | nil =>
    constructor
    · intro h
      exact absurd h not_held_nil
    · rintro ⟨born, h, -⟩
      cases h
  | cons e past ih =>
    obtain ⟨outside, v⟩ := e
    have hp' : (graph.times start past).Pairwise fun later earlier => earlier ≤ later :=
      (List.pairwise_cons.1 (List.pairwise_cons.1 hp).2).2
    have hle : graph.records.time outside ≤ now := hn _ (by simp [times])
    have ih := ih hp' (fun t ht => hn t (by simp [times, ht])) r rows
    rw [held_cons]
    cases v with
    | forget =>
      constructor
      · rintro (⟨he, -⟩ | ⟨hf, -⟩)
        · exact absurd he (List.cons_ne_self _ _).symm
        · exact absurd rfl hf
      · rintro ⟨born, h, -⟩
        cases h
    | read r' =>
      have hv : ((outside, Visit.read r') : δ × Visit).2 ≠ .forget := by simp
      by_cases hs : graph.Sent (meeting outside (graph.after start past)) r'
      · rcases ha : graph.records.ask graph.database r'.statement r'.parameters outside
          with ⟨told, outside'⟩
        have hnot (hr : r = r') : ¬∃ born, (graph.after start past).kept.get? r.name =
            some (born, rows) ∧ now - born < graph.lifetime := by
          rw [hr]
          exact expired_of_not_kept hs.2 hle
        rw [exchanges, ended, after_read_of_sent hs ha, exchange_inj, ih, get?_keeping_iff hnot,
          and_iff_right hv]
      · rw [exchanges, ended, after_read_of_not_sent hs, ih]
        constructor
        · rintro (⟨he, -⟩ | ⟨-, h⟩)
          · exact absurd he (List.cons_ne_self _ _).symm
          · exact h
        · intro h
          exact .inr ⟨hv, h⟩

theorem latest_of_held
    (hp : (graph.times start past).Pairwise fun later earlier => earlier ≤ later) {now : θ}
    (hn : ∀ t ∈ graph.times start past, t ≤ now) {r : Reading} {rows : List Record}
    (h : graph.Held start past now r rows) :
    ∃ newer older, graph.exchanges start past =
        newer ++ ⟨r.statement, r.parameters, .ok rows⟩ :: older ∧
      ∀ e ∈ newer, ¬(e.statement = r.statement ∧ e.parameters = r.parameters) := by
  induction past with
  | nil => exact absurd h not_held_nil
  | cons e past ih =>
    obtain ⟨outside, v⟩ := e
    have hp' : (graph.times start past).Pairwise fun later earlier => earlier ≤ later :=
      (List.pairwise_cons.1 (List.pairwise_cons.1 hp).2).2
    have hn' : ∀ t ∈ graph.times start past, t ≤ now := fun t ht => hn t (by simp [times, ht])
    have hle : graph.records.time outside ≤ now := hn _ (by simp [times])
    rcases held_cons.1 h with ⟨he, -⟩ | ⟨hv, hheld⟩
    · exact ⟨[], _, he, by simp⟩
    · obtain ⟨newer, older, hx, hnewer⟩ := ih hp' hn' hheld
      cases v with
      | forget => exact absurd rfl hv
      | read r' =>
        by_cases hs : graph.Sent (meeting outside (graph.after start past)) r'
        · rcases ha : graph.records.ask graph.database r'.statement r'.parameters outside
            with ⟨told, outside'⟩
          refine ⟨⟨r'.statement, r'.parameters, told⟩ :: newer, older, ?_, ?_⟩
          · rw [exchanges, after_read_of_sent hs ha, hx, List.cons_append]
          · refine List.forall_mem_cons.2 ⟨fun hr => ?_, hnewer⟩
            obtain rfl : r' = r := Reading.eq_of_statement hr.1 hr.2
            exact expired_of_not_kept hs.2 hle ((held_iff_kept hp' hn' r' rows).1 hheld)
        · refine ⟨newer, older, ?_, hnewer⟩
          rw [exchanges, after_read_of_not_sent hs]
          exact hx

variable {outside : δ} {r : Reading}

theorem ask_fresh (hw : r.Writable)
    (hp : (graph.times start ((outside, .read r) :: past)).Pairwise
      fun later earlier => earlier ≤ later) :
    let now := graph.records.time outside
    let s := meeting outside (graph.after start past)
    let found := r.ask graph.noted.source s
    let told := (graph.records.ask graph.database r.statement r.parameters outside).1
    (∀ rows, graph.Held start past now r rows → found = (r.findIn rows, s) ∧
      ∃ newer older, graph.exchanges start past =
          newer ++ ⟨r.statement, r.parameters, .ok rows⟩ :: older ∧
        ∀ e ∈ newer, ¬(e.statement = r.statement ∧ e.parameters = r.parameters)) ∧
      ((∀ rows, ¬graph.Held start past now r rows) → found.1 = graph.findingOf r told) ∧
      (found.2.outside.2 = ⟨r.statement, r.parameters, told⟩ :: s.outside.2 ↔
        ∀ rows, ¬graph.Held start past now r rows) ∧
      (found.2.outside.2 = s.outside.2 ↔ ∃ rows, graph.Held start past now r rows) ∧
      ((∃ f, found.1 = .error f ∧ f.kind = .storageFailed) ↔ graph.strict = true ∧
        ∃ f, found.2.outside.2 = ⟨r.statement, r.parameters, .error f⟩ :: s.outside.2) := by
  intro now s found told
  obtain ⟨-, hp⟩ := List.pairwise_cons.1 hp
  obtain ⟨hn, hp⟩ := List.pairwise_cons.1 hp
  have hheld (rows : List Record) : graph.Held start past now r rows ↔
      graph.noted.keptAnswer r.name s = some rows :=
    (held_iff_kept hp hn r rows).trans keptAnswer_meeting_iff.symm
  simp only [hheld]
  rcases hk : graph.noted.keptAnswer r.name s with _ | rows
  · rcases ha : graph.records.ask graph.database r.statement r.parameters outside
      with ⟨told', outside'⟩
    have ht : told = told' := congrArg Prod.fst ha
    have hf : found = (graph.findingOf r told',
        ⟨(outside', ⟨r.statement, r.parameters, told'⟩ :: s.outside.2),
          keeping r (graph.records.time outside') s.kept told'⟩) :=
      ask_of_not_kept graph.noted hw hk (graph.noted_ask _ ha)
    rw [hf, ht]
    refine ⟨by simp, fun _ => rfl, by simp, by simp, ?_⟩
    rw [exists_outage_iff]
    simp
  · have hf : found = (r.findIn rows, s) := ask_of_kept graph.noted hw hk
    rw [hf]
    refine ⟨fun rows' h => ?_, fun h => absurd rfl (h rows), by simp, by simp, ?_⟩
    · obtain rfl := Option.some.inj h
      exact ⟨rfl, latest_of_held hp hn ((hheld rows).2 hk)⟩
    · constructor
      · rintro ⟨f, hf', hkind⟩
        exact absurd hkind (r.noOutage_findIn rows f hf')
      · rintro ⟨-, f, hx⟩
        exact absurd hx (List.cons_ne_self _ _).symm

/-- A reading whose number can be written is answered with records that count, or else by the
database. Any other is a fault that reads nothing and changes nothing. -/
theorem answers_fresh (hp : (graph.times start ((outside, .read r) :: past)).Pairwise
      fun later earlier => earlier ≤ later) :
    let now := graph.records.time outside
    let s := meeting outside (graph.after start past)
    let found := r.ask graph.noted.source s
    let told := (graph.records.ask graph.database r.statement r.parameters outside).1
    (r.Writable →
      -- records that count are the last answer to the statement, and are found again as they are
      (∀ rows, graph.Held start past now r rows → found = (r.findIn rows, s) ∧
        ∃ newer older, graph.exchanges start past =
            newer ++ ⟨r.statement, r.parameters, .ok rows⟩ :: older ∧
          ∀ e ∈ newer, ¬(e.statement = r.statement ∧ e.parameters = r.parameters)) ∧
        -- without such records the database answers now
        ((∀ rows, ¬graph.Held start past now r rows) → found.1 = graph.findingOf r told) ∧
        -- it is asked just when there are no such records, and asked nothing else
        (found.2.outside.2 = ⟨r.statement, r.parameters, told⟩ :: s.outside.2 ↔
          ∀ rows, ¬graph.Held start past now r rows) ∧
        (found.2.outside.2 = s.outside.2 ↔ ∃ rows, graph.Held start past now r rows) ∧
        -- its failures show in a strict store, and nothing else is taken for one
        ((∃ f, found.1 = .error f ∧ f.kind = .storageFailed) ↔ graph.strict = true ∧
          ∃ f, found.2.outside.2 = ⟨r.statement, r.parameters, .error f⟩ :: s.outside.2)) ∧
      (¬ r.Writable → found = (.error .integerTooLong, s)) ∧
      -- and the answer does not depend on the exchanges being noted
      (r.ask graph.source ⟨outside, s.kept⟩).1 = found.1 := by
  intro now s found told
  exact ⟨fun hw => ask_fresh hw hp, fun hw => Reading.ask_of_not_writable graph.noted hw s,
    congrArg Prod.fst (ask_noted graph r s)⟩

/-- With a lifetime of 5, what was answered at 3 is found again at 7 and asked for at 8. What
follows a step whose number cannot be written is not asked for. -/
theorem answers_fresh_refund :
    let row : Record := .ofEntries [("problemId", .text "refund"), ("stepId", .int 1)]
    let r : Reading := .firstStep "refund"
    let unwritten : Reading := .candidates "refund" Text.leastUnprinted
    let graph : RemoteGraph Int (Database × Int) := ⟨Database.source, none, false, 5⟩
    let telling : Database := .ofBackend (.script [.records [row]]) true
    let silent : Database := .ofBackend (.script []) true
    let past : List ((Database × Int) × Visit) := [((telling, 3), .read r)]
    let s (now : Int) := meeting (silent, now) (graph.after (silent, 0) past)
    let InOrder (now : Int) (r : Reading) :=
      (graph.times (silent, 0) (((silent, now), .read r) :: past)).Pairwise fun t u => u ≤ t
    (InOrder 7 r ∧ r.Writable ∧ (r.ask graph.noted.source (s 7)).1 = r.findIn [row]) ∧
      (InOrder 8 r ∧
        (r.ask graph.noted.source (s 8)).1 = .error (.noFirstStep (some "refund"))) ∧
      InOrder 8 unwritten ∧ ¬ unwritten.Writable ∧
        unwritten.ask graph.noted.source (s 8) = (.error .integerTooLong, s 8) := by
  intro row r unwritten graph telling silent past s InOrder
  have h7 : InOrder 7 r := by unfold InOrder; decide
  have h8 : InOrder 8 r := by unfold InOrder; decide
  have hw : r.Writable := trivial
  have hnw : ¬ unwritten.Writable := Reading.not_writable_leastUnprinted "refund"
  have hu : InOrder 8 unwritten := by
    have he : graph.after (silent, 0) (((silent, 8), .read unwritten) :: past) = s 8 :=
      after_read_of_not_sent fun hs => hnw hs.1
    unfold InOrder
    rw [times, ended, he]
    decide
  have hheld : graph.Held (silent, 0) past 7 r [row] :=
    ⟨[], _, [], rfl, by simp, rfl, by simp, by decide⟩
  have hnot (rows : List Record) : ¬graph.Held (silent, 0) past 8 r rows := by
    intro h
    rcases held_cons.1 h with ⟨-, -, ht⟩ | ⟨-, h⟩
    · exact absurd ht (by decide)
    · exact not_held_nil h
  obtain ⟨hf, -⟩ := (answers_fresh h7).1 hw
  obtain ⟨-, ha, -⟩ := (answers_fresh h8).1 hw
  exact ⟨⟨h7, hw, congrArg Prod.fst (hf _ hheld).1⟩, ⟨h8, ha hnot⟩, hu, hnw,
    (answers_fresh hu).2.1 hnw⟩

end Clock

/-- No answer is held for what follows a step whose number cannot be written, and yet the database
is not asked for it. -/
theorem candidates_unasked :
    let r : Reading := .candidates "refund" Text.leastUnprinted
    let graph : RemoteGraph Int (Database × Int) := ⟨Database.source, none, false, 5⟩
    let silent : Database := .ofBackend (.script []) true
    let s := meeting (silent, 0) (graph.after (silent, 0) [])
    (∀ rows, ¬ graph.Held (silent, 0) [] 0 r rows) ∧
      r.ask graph.noted.source s = (.error .integerTooLong, s) := by
  intro r graph silent s
  exact ⟨fun _ => not_held_nil,
    Reading.ask_of_not_writable graph.noted (Reading.not_writable_leastUnprinted "refund") s⟩

end RemoteGraph

end Playbook
