import Mathlib.Data.Rat.Floor
import Playbook.ContextStore.Choice
import Playbook.Proofs.MemoryLives

/-!
# Lifetimes of contexts

A key-value store is told lifetimes in whole seconds. What is configured is cut down before it is
seen whether there is a lifetime at all, so one below a second is lost, and every context is then
written for good (`ContextStoreChoice.writes_expire`). The store in memory takes any lifetime as it
is.
-/

namespace Playbook

namespace Binary64

variable {x : Binary64} {q : ℚ}

/-- The value of a finite number. -/
def value? : Binary64 → Option ℚ
  | .finite negative m e _ => some (signed negative m * 2 ^ e)
  | _ => none

theorem floor_scaled (m : Nat) (e : Int) :
    ⌊(m : ℚ) * 2 ^ e⌋ = (m : Int) * (Nat.pow 2 e.toNat : Nat) / (Nat.pow 2 (-e).toNat : Nat) := by
  rw [← Rat.floor_intCast_div_natCast, two_zpow, Nat.pow_eq, Nat.pow_eq]
  push_cast
  rw [mul_div_assoc]

theorem isZero_iff (h : x.value? = some q) : x.isZero = true ↔ q = 0 := by
  cases x with
  | finite negative m e _ =>
    obtain rfl := Option.some.inj h
    have he : (2 : ℚ) ^ e ≠ 0 := zpow_ne_zero e two_ne_zero
    cases negative <;> simp [isZero, signed, he]
  | _ => cases h

theorem truncate?_of_value? (h : x.value? = some q) (hq : 0 ≤ q) : x.truncate? = some ⌊q⌋ := by
  cases x with
  | finite negative m e _ =>
    obtain rfl := Option.some.inj h
    cases negative with
    | false => exact congrArg some (floor_scaled m e).symm
    | true =>
      -- A number with a minus that is not below zero is zero.
      have hm : m = 0 := by
        by_contra hne
        have hpos : (0 : ℚ) < m * 2 ^ e :=
          mul_pos (Nat.cast_pos.2 (Nat.pos_of_ne_zero hne)) (zpow_pos two_pos e)
        simp only [signed, if_true, Int.cast_neg, Int.cast_natCast, neg_mul] at hq
        linarith
      subst hm
      simp [truncate?, signed]
  | _ => cases h

end Binary64

namespace Value

variable {v : Value} {q : ℚ}

/-- The seconds that a value stands for. -/
def span? : Value → Option ℚ
  | .int i => some i
  | .bool b => some (if b then 1 else 0)
  | .float x => x.value?
  | _ => none

theorem isTruthy_iff (h : v.span? = some q) : v.isTruthy = true ↔ q ≠ 0 := by
  cases v with
  | int i =>
    obtain rfl := Option.some.inj h
    simp [isTruthy]
  | bool b =>
    obtain rfl := Option.some.inj h
    cases b <;> simp [isTruthy]
  | float x =>
    rw [isTruthy, Bool.not_eq_true', ← Bool.not_eq_true, Binary64.isZero_iff h]
  | _ => cases h

theorem whole_of_span? (h : v.span? = some q) (hq : 0 ≤ q) : v.whole = .ok ⌊q⌋ := by
  cases v with
  | int i =>
    obtain rfl := Option.some.inj h
    simp [whole]
  | bool b =>
    obtain rfl := Option.some.inj h
    cases b <;> simp [whole]
  | float x => simp only [whole, Binary64.truncate?_of_value? h hq]
  | _ => cases h

/-- Null for no lifetime, or a positive number of seconds. -/
def Lifetime (v : Value) : Prop := v = .null ∨ ∃ q, v.span? = some q ∧ 0 < q

theorem seconds?_isSome_iff (h : v.Lifetime) : v.seconds?.isSome = true ↔ v ≠ .null := by
  rcases h with rfl | ⟨q, hq, -⟩
  · simp [seconds?]
  · cases v with
    | int | bool | float => simp [seconds?]
    | null | text => cases hq

end Value

/-- Whether a request makes a context: an accepted put does, and a read of a user who is not
known. -/
def Request.makes (known : Bool) : Request → Bool
  | .get _ => !known
  | .put _ data => (Context.ofData data).isOk
  | .clear _ => false

section Within

variable {κ σ θ : Type} (source : ContextSource κ) (part : σ → κ) (put : κ → σ → σ)

theorem ContextSource.ask_within (hput : ∀ s, put (part s) s = s) (request : Request) (s : σ) :
    (source.within part put).ask request s =
      ((source.ask request (part s)).1, put (source.ask request (part s)).2 s) := by
  cases request with
  | put user data =>
    rcases h : Context.ofData data with f | context
    · rw [ask_put_of_error _ h, ask_put_of_error _ h, hput]
    · rw [ask_put_of_ok _ h, ask_put_of_ok _ h]
      rfl
  | _ => rfl

theorem ContextSource.run_within (hput : ∀ s, put (part s) s = s)
    (hpart : ∀ k s, part (put k s) = k) {tick : θ → σ → σ} {tick' : θ → κ → κ}
    (htick : ∀ now s, part (tick now s) = tick' now (part s)) (s : σ)
    (past : List (θ × Request)) :
    part ((source.within part put).run tick s past) = source.run tick' (part s) past := by
  induction past with
  | nil => rfl
  | cons e past ih =>
    rw [run, run, ask_within source part put hput, hpart, htick, ih]

end Within

/-- Whether a command writes a text. -/
def KeyCommand.writes : KeyCommand → Bool
  | .set .. | .setFor .. => true
  | _ => false

namespace KeyedStore

variable (store : KeyedStore) {θ : Type}

theorem writes_writing (user text : String) : (store.writing user text).writes = true := by
  unfold writing
  split_ifs <;> rfl

theorem get_of_known {user text : String} {values : KeyValues}
    (h : values.texts.get? (store.key user) = some text) : store.get user values =
      (JsonText.read text >>= Context.ofDocument, values.send (.get (store.key user))) := by
  simp only [get, h]

theorem get_of_unknown {user : String} {values : KeyValues}
    (h : values.texts.get? (store.key user) = none) : store.get user values =
      (.ok .empty, (values.send (.get (store.key user))).send (store.writing user "\x7b\x7d")) := by
  have hput (values : KeyValues) : store.put user .empty values =
      (.ok (), values.send (store.writing user "\x7b\x7d")) := rfl
  simp only [get, h, hput]

/-- What is sent for a request, and what of it are writes. -/
theorem ask_sends (request : Request) (values : KeyValues) :
    ∃ sent, (store.source.ask request values).2.log = values.log ++ sent ∧
      (∀ command ∈ sent, command.writes = true →
        ∃ text, command = store.writing request.user text) ∧
      ((store.source.ask request values).1.isOk = true →
        (request.makes (values.texts.contains (store.key request.user)) = true ↔
          ∃ command ∈ sent, command.writes = true)) := by
  cases request with
  | get user =>
    rw [Request.user, Request.makes, OrderedMap.contains]
    rcases h : values.texts.get? (store.key user) with _ | text
    · refine ⟨[.get (store.key user), store.writing user "\x7b\x7d"], ?_, ?_, fun _ => ?_⟩
      · change (store.get user values).2.log = _
        rw [store.get_of_unknown h]
        simp [KeyValues.send]
      · simp [KeyCommand.writes]
      · exact ⟨fun _ => ⟨_, .tail _ (.head _), store.writes_writing user _⟩, fun _ => rfl⟩
    · refine ⟨[.get (store.key user)], ?_, ?_, fun _ => ?_⟩
      · change (store.get user values).2.log = _
        rw [store.get_of_known h]
        rfl
      · simp [KeyCommand.writes]
      · simp [KeyCommand.writes]
  | put user data =>
    rw [Request.user, Request.makes]
    rcases h : Context.ofData data with f | context
    · rw [ContextSource.ask_put_of_error _ h]
      exact ⟨[], (List.append_nil _).symm, by simp, fun hno => nomatch hno⟩
    · rw [ContextSource.ask_put_of_ok _ h]
      change ∃ sent, (store.put user context values).2.log = _ ∧ _ ∧
        (((store.put user context values).1.map _).isOk = true → _)
      unfold KeyedStore.put
      rcases JsonText.writeLine context with f | text
      · exact ⟨[], (List.append_nil _).symm, by simp, fun hno => nomatch hno⟩
      · refine ⟨[store.writing user text], rfl, ?_, fun _ => ?_⟩
        · simp
        · simp [writes_writing, Except.isOk, Except.toBool]
  | clear user =>
    refine ⟨[.delete (store.key user)], rfl, ?_, fun _ => ?_⟩
    · simp [KeyCommand.writes]
    · simp [KeyCommand.writes, Request.makes]

/-- All writes to a key-value store are alike, whatever becomes of the texts in between. -/
theorem run_sends {drift : θ → KeyValues → KeyValues}
    (hdrift : ∀ now values, (drift now values).log = values.log) (values : KeyValues)
    (past : List (θ × Request)) :
    ∃ sent, (store.source.run drift values past).log = values.log ++ sent ∧
      ∀ command ∈ sent, command.writes = true →
        ∃ user text, command = store.writing user text := by
  induction past with
  | nil => exact ⟨[], (List.append_nil _).symm, by simp⟩
  | cons e past ih =>
    obtain ⟨now, request⟩ := e
    obtain ⟨earlier, he, hearlier⟩ := ih
    obtain ⟨sent, hs, hsent, -⟩ :=
      store.ask_sends request (drift now (store.source.run drift values past))
    refine ⟨earlier ++ sent, ?_, ?_⟩
    · rw [ContextSource.run, hs, hdrift, he, List.append_assoc]
    · intro command hm hw
      rcases List.mem_append.1 hm with hm | hm
      · exact hearlier command hm hw
      · exact ⟨request.user, hsent command hm hw⟩

end KeyedStore

/-- A request that makes a context leaves its deadline, if there is a lifetime. -/
theorem MemoryStore.Holds.deadline_ask {θ : Type} [Add θ] [LE θ] [DecidableLE θ]
    {lifetime : Option θ} {store : MemoryStore θ} {shelf : Shelf θ}
    (h : store.Holds lifetime shelf) {request : Request}
    (hm : request.makes (decide (request.user ∈ store.users)) = true) :
    (source.ask request store).2.deadlines.get? request.user =
      lifetime.map (store.now + ·) := by
  have hafter : (source.ask request store).2.Holds lifetime
    (shelf.after lifetime store.now request) := (follows lifetime).after h trivial store.now
  have hborn : ∃ context, shelf.after lifetime store.now request request.user =
      some ⟨context, store.now⟩ := by
    cases request with
    | get user =>
      have hnone : shelf.alive lifetime store.now user = none := by
        rw [Option.eq_none_iff_forall_ne_some]
        intro kept hkept
        have hu := h.mem_users_iff.2 ⟨kept, (Shelf.alive_eq_some_iff _ _).1 hkept⟩
        simp [Request.makes, Request.user, hu] at hm
      exact ⟨.empty, by simp [Shelf.after, Request.user, Shelf.found, hnone]⟩
    | put user data =>
      rcases hd : Context.ofData data with f | context
      · rw [Request.makes, hd] at hm
        cases hm
      · exact ⟨context, by simp [Shelf.after, hd, Request.user]⟩
    | clear user => cases hm
  obtain ⟨context, hborn⟩ := hborn
  rw [hafter.deadlines, hborn]
  cases lifetime <;> rfl

/-- A write suits a lifetime: it tells the whole seconds, of which there is at least one, or nothing
where there is no whole second to tell. -/
def KeyCommand.Suits (lifetime : Value) : KeyCommand → Prop
  | .set _ _ => lifetime = .null ∨ ∃ q, lifetime.span? = some q ∧ q < 1
  | .setFor _ seconds _ => ∃ q : ℚ, lifetime.span? = some q ∧ seconds = .int ⌊q⌋ ∧
      1 ≤ ⌊q⌋ ∧ ⌊q⌋ ≤ ⌈q⌉
  | _ => True

theorem KeyCommand.suits_of_not_writes {lifetime : Value} {command : KeyCommand}
    (h : ¬ command.writes = true) : command.Suits lifetime := by
  cases command with
  | get | delete => trivial
  | set | setFor => exact absurd rfl h

/-- The time is now, and the texts of the key-value store are what they have become. -/
def ContextState.tick (drift : Binary64 → KeyValues → KeyValues) (now : Binary64)
    (s : ContextState) : ContextState :=
  { s with memory := { s.memory with now := now }, values := drift now s.values }

namespace ContextStoreChoice

variable {lifetime : Value}

theorem make_keyed {address : String} (ha : address ≠ "") {seconds : Value}
    (h : wholeSeconds lifetime = .ok seconds) (folder : Option String) :
    make "redis" lifetime folder (some address) =
      .ok (.keyed address ⟨KeyedStore.defaultKeyStart, seconds⟩) := by
  rw [make, if_neg (by decide), if_neg (by decide), if_pos rfl, Option.getD_some]
  split
  · contradiction
  · rw [h]
    rfl

theorem wholeSeconds_eq (h : lifetime.Lifetime) : ∃ seconds, wholeSeconds lifetime = .ok seconds ∧
    ∀ store : KeyedStore, store.lifetime = seconds → ∀ user text,
      (store.writing user text).Suits lifetime := by
  rcases h with rfl | ⟨q, hq, hpos⟩
  · refine ⟨.null, rfl, fun store hs user text => ?_⟩
    rw [KeyedStore.writing, hs]
    exact .inl rfl
  · have ht : lifetime.isTruthy = true := (Value.isTruthy_iff hq).2 hpos.ne'
    refine ⟨.int ⌊q⌋, ?_, fun store hs user text => ?_⟩
    · rw [wholeSeconds, if_pos ht, Value.whole_of_span? hq hpos.le]
      rfl
    · rw [KeyedStore.writing, hs]
      split_ifs with hf
      · have hne : ⌊q⌋ ≠ 0 := of_decide_eq_true hf
        have hge : 0 ≤ ⌊q⌋ := Int.floor_nonneg.2 hpos.le
        exact ⟨q, hq, rfl, by omega, Int.floor_le_ceil q⟩
      · have hzero : ⌊q⌋ = 0 := not_not.1 fun hne => hf (decide_eq_true hne)
        exact .inr ⟨q, hq, (Int.floor_eq_zero_iff.1 hzero).2⟩

/-- The state of a chosen store at a time, after requests of which the latest is the first. What is
in a key-value store drifts between requests, as texts are forgotten when their time has come. -/
def stateAt (choice : ContextStoreChoice) (drift : Binary64 → KeyValues → KeyValues)
    (s : ContextState) (past : List (Binary64 × Request)) (now : Binary64) : ContextState :=
  (choice.source.run (.tick drift) (choice.start s) past).tick drift now

section Parts

variable (address : String) (store : KeyedStore) (lifetime : Value)
  (drift : Binary64 → KeyValues → KeyValues) (s : ContextState)

theorem ask_keyed (request : Request) : (keyed address store).source.ask request s =
    ((store.source.ask request s.values).1,
      { s with values := (store.source.ask request s.values).2 }) :=
  ContextSource.ask_within store.source ContextState.values (fun v s => { s with values := v })
    (fun _ => rfl) request s

theorem run_keyed (past : List (Binary64 × Request)) :
    ((keyed address store).source.run (.tick drift) s past).values =
      store.source.run drift s.values past :=
  ContextSource.run_within store.source ContextState.values (fun v s => { s with values := v })
    (fun _ => rfl) (fun _ _ => rfl) (fun _ _ => rfl) s past

theorem ask_memory (request : Request) : (memory lifetime).source.ask request s =
    ((MemoryStore.source.ask request s.memory).1,
      { s with memory := (MemoryStore.source.ask request s.memory).2 }) :=
  ContextSource.ask_within MemoryStore.source ContextState.memory
    (fun m s => { s with memory := m }) (fun _ => rfl) request s

theorem holds_stateAt (past : List (Binary64 × Request)) (now : Binary64) :
    ((memory lifetime).stateAt drift s past now).memory.Holds lifetime.seconds?
      (.ofHistory lifetime.seconds? past) := by
  have hrun : ((memory lifetime).source.run (.tick drift) ((memory lifetime).start s) past).memory =
      MemoryStore.source.run (fun now (m : MemoryStore Binary64) => { m with now := now })
        (.fresh lifetime.seconds? s.memory.now) past :=
    ContextSource.run_within MemoryStore.source ContextState.memory
      (fun m s => { s with memory := m }) (fun _ => rfl) (fun _ _ => rfl) (fun _ _ => rfl)
      ((memory lifetime).start s) past
  have hholds := (MemoryStore.follows lifetime.seconds?).run
    (MemoryStore.holds_fresh lifetime.seconds? s.memory.now) (fun e (_ : e ∈ past) => trivial)
  rw [← hrun] at hholds
  exact hholds.tick now

end Parts

/-- Whatever becomes of the texts in between, every write to the key-value store of a lifetime tells
its whole seconds, and is for good only where there is no lifetime or less than a second. The store
in memory ends every context that it makes, if there is a lifetime that its clock can tell. -/
theorem writes_expire (h : lifetime.Lifetime) {address : String} (ha : address ≠ "")
    (folder : Option String) :
    ∃ store : KeyedStore,
      make "redis" lifetime folder (some address) = .ok (.keyed address store) ∧
      make "memory" lifetime folder (some address) = .ok (.memory lifetime) ∧
      ∀ drift : Binary64 → KeyValues → KeyValues,
        (∀ now values, (drift now values).log = values.log) →
      ∀ (s : ContextState) (past : List (Binary64 × Request)) (now : Binary64) (request : Request),
        let before (choice : ContextStoreChoice) := choice.stateAt drift s past now
        let after (choice : ContextStoreChoice) := choice.source.ask request (before choice)
        let keyed := ContextStoreChoice.keyed address store
        let memory := ContextStoreChoice.memory lifetime
        -- what was sent in all
        (∃ sent, (after keyed).2.values.log = s.values.log ++ sent ∧
          ∀ command ∈ sent, command.Suits lifetime) ∧
        -- what was sent last
        (∃ sent, (after keyed).2.values.log = (before keyed).values.log ++ sent ∧
          ((after keyed).1.isOk = true →
            (request.makes ((before keyed).values.texts.contains (store.key request.user)) = true ↔
              ∃ command ∈ sent, command.writes = true))) ∧
        -- the deadline in memory, for a clock to which the lifetime can be added
        ((∀ negative, lifetime.seconds? ≠ some (.infinite negative)) →
          request.makes (decide (request.user ∈ (before memory).memory.users)) = true →
            ((after memory).2.memory.deadlines.get? request.user =
                lifetime.seconds?.map (now + ·) ∧
              (((after memory).2.memory.deadlines.get? request.user).isSome = true ↔
                lifetime ≠ .null))) := by
  obtain ⟨seconds, hseconds, hsuits⟩ := wholeSeconds_eq h
  refine ⟨⟨KeyedStore.defaultKeyStart, seconds⟩, make_keyed ha hseconds folder, rfl, ?_⟩
  intro drift hdrift s past now request before after keyed memory
  set store : KeyedStore := ⟨KeyedStore.defaultKeyStart, seconds⟩
  refine ⟨?_, ?_, fun _ hm => ?_⟩
  · have hrun := run_keyed address store drift s ((now, request) :: past)
    obtain ⟨sent, hlog, hsent⟩ := store.run_sends hdrift s.values ((now, request) :: past)
    refine ⟨sent, (congrArg KeyValues.log hrun).trans hlog, fun command hm => ?_⟩
    by_cases hw : command.writes = true
    · obtain ⟨user, text, rfl⟩ := hsent command hm hw
      exact hsuits store rfl user text
    · exact KeyCommand.suits_of_not_writes hw
  · obtain ⟨sent, hlog, -, hwrites⟩ := store.ask_sends request (before keyed).values
    have hask : after keyed = _ := ask_keyed address store (before keyed) request
    rw [hask]
    exact ⟨sent, hlog, hwrites⟩
  · have hask : after memory = _ := ask_memory lifetime (before memory) request
    have hdeadline := (holds_stateAt lifetime drift s past now).deadline_ask hm
    rw [hask]
    refine ⟨hdeadline, ?_⟩
    rw [hdeadline, Option.isSome_map, Value.seconds?_isSome_iff h]

/-- A minute, where the key-value store has forgotten everything before each request. -/
theorem writes_expire_minute :
    let lifetime : Value := .int 60
    let drift (_ : Binary64) (values : KeyValues) : KeyValues := { values with texts := .empty }
    let s : ContextState :=
      ⟨.fresh none (.ofInt 0), ⟨"home", [], .empty, .ofInt 0⟩, .fresh⟩
    let past : List (Binary64 × Request) := [(.ofInt 2, .get "u"), (.ofInt 1, .put "u" .empty)]
    let after (choice : ContextStoreChoice) :=
      choice.source.ask (.get "v") (choice.stateAt drift s past (.ofInt 3))
    lifetime.Lifetime ∧ ∃ store sent,
      make "redis" lifetime none (some "redis://h") = .ok (.keyed "redis://h" store) ∧
      (after (.keyed "redis://h" store)).2.values.log = s.values.log ++ sent ∧
      (∀ command ∈ sent, command.Suits lifetime) ∧
      ((after (.memory lifetime)).2.memory.deadlines.get? "v").isSome = true := by
  intro lifetime drift s past after
  have h : lifetime.Lifetime := .inr ⟨60, rfl, by norm_num⟩
  obtain ⟨store, hmake, -, hall⟩ := writes_expire h (by decide : "redis://h" ≠ "") none
  obtain ⟨⟨sent, hlog, hsuits⟩, -, hmemory⟩ :=
    hall drift (fun _ _ => rfl) s past (.ofInt 3) (.get "v")
  have hfinite (negative : Bool) : lifetime.seconds? ≠ some (.infinite negative) := by
    cases negative <;> decide +kernel
  have hdeadline := (hmemory hfinite (by decide +kernel)).2.2 nofun
  refine ⟨h, store, sent, hmake, hlog, hsuits, ?_⟩
  simpa only [after, Request.user] using hdeadline

/-- Half a second is lost: the key-value store keeps for good what ends in memory. -/
theorem half_second_lost :
    let lifetime : Value := .float (.finite false (2 ^ 52) (-53) (by decide))
    let s : ContextState :=
      ⟨.fresh none (.ofInt 0), ⟨"home", [], .empty, .ofInt 0⟩, .fresh⟩
    let memory := ContextStoreChoice.memory lifetime
    lifetime.Lifetime ∧ ∃ store,
      make "redis" lifetime none (some "redis://h") = .ok (.keyed "redis://h" store) ∧
      ((ContextStoreChoice.keyed "redis://h" store).source.ask (.put "u" .empty) s).2.values.log =
        [.set "kgflow:context:u" "\x7b\x7d"] ∧
      ((memory.source.ask (.put "u" .empty) (memory.start s)).2.memory.deadlines.get? "u").isSome =
        true := by
  intro lifetime s memory
  refine ⟨.inr ⟨_, rfl, ?_⟩, ⟨KeyedStore.defaultKeyStart, .int 0⟩, ?_, ?_, ?_⟩
  · norm_num [Binary64.signed]
  · decide
  · rfl
  · rfl

end ContextStoreChoice

end Playbook
