import Mathlib.Logic.Function.Basic
import Mathlib.Tactic.Common
import Playbook.ContextStore.Memory

/-!
# Contexts on a shelf

What a context store stands for: a shelf holds a context for each user with the time of its birth,
and a context lives from then on for a lifetime. A store that keeps step with a shelf through each
request (`ContextSource.Follows`) answers as the shelf does after every history of requests
(`Follows.reply_run`). The store in memory keeps step with a shelf (`MemoryStore.follows`).
-/

namespace Playbook

/-- A context and the time of its birth. -/
structure Kept (θ : Type) where
  context : Context
  since : θ

/-- The contexts of users. -/
abbrev Shelf (θ : Type) := String → Option (Kept θ)

/-- What is asked of a context store. -/
inductive Request where
  | get (user : String)
  | put (user : String) (data : OrderedMap String Datum)
  | clear (user : String)

def Request.user : Request → String
  | get user | put user _ | clear user => user

namespace Shelf

variable {θ : Type}

def empty : Shelf θ := fun _ => none

section Lifetime

variable [Add θ] [LE θ] [DecidableLE θ]

/-- Whether a context has not reached its end. -/
def Lives (lifetime : Option θ) (now : θ) (kept : Kept θ) : Prop :=
  ∀ l ∈ lifetime, ¬kept.since + l ≤ now

instance (lifetime : Option θ) (now : θ) (kept : Kept θ) : Decidable (Lives lifetime now kept) :=
  decidable_of_iff ((lifetime.all fun l => !decide (kept.since + l ≤ now)) = true) (by
    cases lifetime <;> simp [Lives])

variable (lifetime : Option θ) (now : θ)

/-- The contexts that are alive at a time. -/
def alive (shelf : Shelf θ) : Shelf θ := fun user =>
  (shelf user).filter fun kept => Lives lifetime now kept

theorem alive_eq_some_iff {shelf : Shelf θ} {user : String} {kept : Kept θ} :
    shelf.alive lifetime now user = some kept ↔
      shelf user = some kept ∧ Lives lifetime now kept := by
  rw [alive, Option.filter_eq_some_iff, decide_eq_true_eq]

theorem alive_eq_none {lifetime : Option θ} {now : θ} {shelf : Shelf θ} {user : String}
    (h : ∃ kept, shelf user = some kept ∧ ¬Lives lifetime now kept) :
    shelf.alive lifetime now user = none := by
  obtain ⟨kept, hk, hl⟩ := h
  simp [alive, hk, hl]

theorem alive_eq_self {lifetime : Option θ} {now : θ} {shelf : Shelf θ} {user : String}
    (h : ¬∃ kept, shelf user = some kept ∧ ¬Lives lifetime now kept) :
    shelf.alive lifetime now user = shelf user := by
  rw [not_exists] at h
  rcases hk : shelf user with _ | kept
  · simp [alive, hk]
  · have hl : Lives lifetime now kept := by simpa [hk] using h kept
    simp [alive, hk, hl]

/-- Without a lifetime nothing ends. -/
theorem alive_none (now : θ) (shelf : Shelf θ) : shelf.alive none now = shelf := by
  funext user
  refine alive_eq_self ?_
  rintro ⟨kept, -, hl⟩
  exact hl fun l h => absurd h (by simp)

/-- What a user has at a time: an empty context is born if none is alive. -/
def found (shelf : Shelf θ) (user : String) : Kept θ :=
  (shelf.alive lifetime now user).getD ⟨.empty, now⟩

/-- The answer to a request: the context that is read, or that it was done, or why not. -/
def reply (shelf : Shelf θ) : Request → Except Fault (Option Context)
  | .get user => .ok (some (shelf.found lifetime now user).context)
  | .put _ data => (Context.ofData data).map fun _ => none
  | .clear _ => .ok none

/-- The shelf after a request. What is read keeps its birth; data that make no context change
nothing. -/
def after (shelf : Shelf θ) : Request → Shelf θ
  | .get user => Function.update shelf user (some (shelf.found lifetime now user))
  | .put user data =>
    match Context.ofData data with
    | .ok context => Function.update shelf user (some ⟨context, now⟩)
    | .error _ => shelf
  | .clear user => Function.update shelf user none

/-- The shelf after a history of requests with their times, the latest first. -/
def ofHistory : List (θ × Request) → Shelf θ
  | [] => empty
  | (now, request) :: past => (ofHistory past).after lifetime now request

end Lifetime

/-- The context of a user after requests, the latest first: the one that the last accepted put made,
if it was not cleared since. -/
def lastPut (user : String) : List Request → Option Context
  | [] => none
  | .get _ :: past => lastPut user past
  | .put u data :: past =>
    match Context.ofData data with
    | .ok context => if u = user then some context else lastPut user past
    | .error _ => lastPut user past
  | .clear u :: past => if u = user then none else lastPut user past

/-- What a store that forgets nothing answers to a request after others, the latest first. -/
def lastReply (past : List Request) : Request → Except Fault (Option Context)
  | .get user => .ok (some ((lastPut user past).getD .empty))
  | .put _ data => (Context.ofData data).map fun _ => none
  | .clear _ => .ok none

section Forever

variable [Add θ] [LE θ] [DecidableLE θ]

theorem found_none (now : θ) (shelf : Shelf θ) (user : String) :
    (shelf.found none now user).context = ((shelf user).map Kept.context).getD .empty := by
  rw [found, alive_none]
  cases shelf user <;> rfl

theorem context_ofHistory (past : List (θ × Request)) (user : String) :
    ((ofHistory none past user).map Kept.context).getD .empty =
      (lastPut user (past.map Prod.snd)).getD .empty := by
  induction past with
  | nil => rfl
  | cons e past ih =>
    obtain ⟨now, request⟩ := e
    rw [ofHistory, List.map_cons]
    cases request with
    | get u =>
      rw [after, lastPut, Function.update_apply, ← ih]
      split
      · rename_i hu
        rw [hu, Option.map_some, Option.getD_some, found_none]
      · rfl
    | put u data =>
      rcases hd : Context.ofData data with f | context
      · rw [after, lastPut, hd]
        exact ih
      · rw [after, lastPut, hd]
        by_cases hu : user = u
        · simp [hu]
        · simpa [hu, Ne.symm hu] using ih
    | clear u =>
      rw [after, lastPut]
      by_cases hu : user = u
      · simp [hu]
      · simpa [hu, Ne.symm hu] using ih

/-- Without a lifetime the answer is that of the last put. -/
theorem reply_ofHistory (past : List (θ × Request)) (now : θ) (request : Request) :
    (ofHistory none past).reply none now request = lastReply (past.map Prod.snd) request := by
  cases request with
  | get user => rw [reply, lastReply, found_none, context_ofHistory]
  | _ => rfl

end Forever

end Shelf

namespace ContextSource

variable {κ θ : Type}

/-- Asks a store; the answer has the context that was read, if one was. -/
def ask (store : ContextSource κ) : Request → Attempt κ (Option Context)
  | .get user, s => ((store.get user s).1.map some, (store.get user s).2)
  | .put user data, s =>
    ((store.putData user data s).1.map fun _ => none, (store.putData user data s).2)
  | .clear user, s => ((store.clear user s).1.map fun _ => none, (store.clear user s).2)

/-- The state of a store after a history of requests with their times, the latest first. -/
def run (store : ContextSource κ) (tick : θ → κ → κ) (start : κ) : List (θ × Request) → κ
  | [] => start
  | (now, request) :: past => (store.ask request (tick now (store.run tick start past))).2

/-- Data that make no context are refused, and nothing changes. -/
theorem ask_put_of_error (store : ContextSource κ) {user : String}
    {data : OrderedMap String Datum} {f : Fault} (h : Context.ofData data = .error f) (s : κ) :
    store.ask (.put user data) s = (.error f, s) := by
  simp [ask, putData, h, Except.map]

theorem ask_put_of_ok (store : ContextSource κ) {user : String}
    {data : OrderedMap String Datum} {context : Context} (h : Context.ofData data = .ok context)
    (s : κ) : store.ask (.put user data) s =
      ((store.put user context s).1.map fun _ => none, (store.put user context s).2) := by
  simp [ask, putData, h]

section Follows

variable [Add θ] [LE θ] [DecidableLE θ]

/-- A store keeps step with a shelf: through each allowed request at any time it stays the image of
the shelf and answers as the shelf does. -/
structure Follows (store : ContextSource κ) (tick : θ → κ → κ) (lifetime : Option θ)
    (allowed : Request → Prop) (holds : κ → Shelf θ → Prop) : Prop where
  reply : ∀ {s shelf request}, holds s shelf → allowed request → ∀ now,
    (store.ask request (tick now s)).1 = shelf.reply lifetime now request
  after : ∀ {s shelf request}, holds s shelf → allowed request → ∀ now,
    holds (store.ask request (tick now s)).2 (shelf.after lifetime now request)

variable {store : ContextSource κ} {tick : θ → κ → κ} {lifetime : Option θ}
  {allowed : Request → Prop} {holds : κ → Shelf θ → Prop}

/-- The steps are reads, writes of contexts, refused writes and removals. -/
theorem Follows.of_steps
    (htick : ∀ {s shelf}, holds s shelf → ∀ now, holds (tick now s) shelf)
    (hget : ∀ {s shelf user}, holds s shelf → allowed (.get user) → ∀ now,
      (store.get user (tick now s)).1 = .ok (shelf.found lifetime now user).context ∧
        holds (store.get user (tick now s)).2
          (Function.update shelf user (some (shelf.found lifetime now user))))
    (hput : ∀ {s shelf user data context}, holds s shelf → allowed (.put user data) → ∀ now,
      Context.ofData data = .ok context →
        (store.put user context (tick now s)).1 = .ok () ∧
          holds (store.put user context (tick now s)).2
            (Function.update shelf user (some ⟨context, now⟩)))
    (hclear : ∀ {s shelf user}, holds s shelf → allowed (.clear user) → ∀ now,
      (store.clear user (tick now s)).1 = .ok () ∧
        holds (store.clear user (tick now s)).2 (Function.update shelf user none)) :
    store.Follows tick lifetime allowed holds where
  reply {s shelf request} h ha now := by
    cases request with
    | get user => exact congrArg (Except.map some) (hget h ha now).1
    | put user data =>
      rcases hd : Context.ofData data with f | context
      · rw [ask_put_of_error _ hd, Shelf.reply, hd]
        rfl
      · rw [ask_put_of_ok _ hd, Shelf.reply, hd]
        exact congrArg (Except.map fun _ => none) (hput h ha now hd).1
    | clear user => exact congrArg (Except.map fun _ => none) (hclear h ha now).1
  after {s shelf request} h ha now := by
    cases request with
    | get user => exact (hget h ha now).2
    | put user data =>
      rcases hd : Context.ofData data with f | context
      · rw [ask_put_of_error _ hd, Shelf.after, hd]
        exact htick h now
      · rw [ask_put_of_ok _ hd, Shelf.after, hd]
        exact (hput h ha now hd).2
    | clear user => exact (hclear h ha now).2

theorem Follows.run (h : store.Follows tick lifetime allowed holds) {start : κ}
    (hs : holds start .empty) {past : List (θ × Request)} (hp : ∀ e ∈ past, allowed e.2) :
    holds (store.run tick start past) (.ofHistory lifetime past) := by
  induction past with
  | nil => exact hs
  | cons e past ih =>
    exact h.after (ih fun e he => hp e (List.mem_cons_of_mem _ he)) (hp e List.mem_cons_self) e.1

/-- After every history the store answers as the shelf does. -/
theorem Follows.reply_run (h : store.Follows tick lifetime allowed holds) {start : κ}
    (hs : holds start .empty) {past : List (θ × Request)} (hp : ∀ e ∈ past, allowed e.2)
    {request : Request} (hr : allowed request) (now : θ) :
    (store.ask request (tick now (store.run tick start past))).1 =
      (Shelf.ofHistory lifetime past).reply lifetime now request :=
  h.reply (h.run hs hp) hr now

end Follows

end ContextSource

namespace MemoryStore

variable {θ : Type} [Add θ]

/-- The two maps of a store hold what is on a shelf: contexts, and when they end. -/
structure Holds (lifetime : Option θ) (store : MemoryStore θ) (shelf : Shelf θ) : Prop where
  lifetime_eq : store.lifetime = lifetime
  contexts : ∀ user, store.contexts.get? user = (shelf user).map Kept.context
  deadlines : ∀ user, store.deadlines.get? user =
    (shelf user).bind fun kept => lifetime.map (kept.since + ·)

variable {lifetime : Option θ} {store : MemoryStore θ} {shelf : Shelf θ}

theorem holds_fresh (lifetime : Option θ) (now : θ) : (fresh lifetime now).Holds lifetime .empty :=
  ⟨rfl, fun _ => rfl, fun _ => rfl⟩

namespace Holds

/-- A shelf does not see the clock. -/
theorem tick (h : store.Holds lifetime shelf) (now : θ) :
    Holds lifetime { store with now := now } shelf :=
  ⟨h.lifetime_eq, h.contexts, h.deadlines⟩

theorem clear (h : store.Holds lifetime shelf) (user : String) :
    (store.clear user).Holds lifetime (Function.update shelf user none) where
  lifetime_eq := h.lifetime_eq
  contexts k := by
    rw [MemoryStore.clear, OrderedMap.get?_erase, h.contexts, Function.update_apply]
    split <;> rfl
  deadlines k := by
    rw [MemoryStore.clear, OrderedMap.get?_erase, h.deadlines, Function.update_apply]
    split <;> rfl

theorem put (h : store.Holds lifetime shelf) (user : String) (context : Context) :
    (store.put user context).Holds lifetime
      (Function.update shelf user (some ⟨context, store.now⟩)) where
  lifetime_eq := h.lifetime_eq
  contexts k := by
    rw [MemoryStore.put, OrderedMap.get?_insert, h.contexts, Function.update_apply]
    split <;> rfl
  deadlines k := by
    rw [MemoryStore.put, h.lifetime_eq, Function.update_apply]
    cases lifetime with
    | none =>
      dsimp only
      rw [h.deadlines]
      split <;> simp
    | some l =>
      dsimp only
      rw [OrderedMap.get?_insert, h.deadlines]
      split <;> rfl

variable [LE θ] [DecidableLE θ]

theorem isExpired_iff (h : store.Holds lifetime shelf) (user : String) :
    store.isExpired user = true ↔
      ∃ kept, shelf user = some kept ∧ ¬Shelf.Lives lifetime store.now kept := by
  unfold isExpired Shelf.Lives
  rw [h.deadlines]
  rcases shelf user with _ | kept
  · simp
  · rcases lifetime with _ | l
    · simp
    · simp

/-- What has ended is forgotten when it is asked for. -/
theorem forget (h : store.Holds lifetime shelf) (user : String) :
    Holds lifetime (if store.isExpired user then store.clear user else store)
      (Function.update shelf user (shelf.alive lifetime store.now user)) := by
  split_ifs with he
  · rw [Shelf.alive_eq_none ((h.isExpired_iff user).1 he)]
    exact h.clear user
  · rw [Shelf.alive_eq_self fun hk => he ((h.isExpired_iff user).2 hk), Function.update_eq_self]
    exact h

theorem get (h : store.Holds lifetime shelf) (user : String) :
    (store.get user).1 = (shelf.found lifetime store.now user).context ∧
      (store.get user).2.Holds lifetime
        (Function.update shelf user (some (shelf.found lifetime store.now user))) := by
  have hf := h.forget user
  have hn : (if store.isExpired user then store.clear user else store).now = store.now := by
    split_ifs <;> rfl
  have hc := hf.contexts user
  rw [Function.update_self] at hc
  unfold MemoryStore.get Shelf.found
  dsimp only
  rcases ha : shelf.alive lifetime store.now user with _ | kept
  · rw [ha] at hc hf
    have hp := hf.put user .empty
    rw [Function.update_idem, hn] at hp
    rw [hc]
    exact ⟨rfl, hp⟩
  · rw [ha] at hc hf
    rw [hc]
    exact ⟨rfl, hf⟩

end Holds

/-- The store keeps step with a shelf. -/
theorem follows [LE θ] [DecidableLE θ] (lifetime : Option θ) :
    source.Follows (fun now (store : MemoryStore θ) => { store with now := now }) lifetime
      (fun _ => True) (Holds lifetime) :=
  .of_steps (fun h now => h.tick now)
    (fun h _ now => ((h.tick now).get _).imp_left (congrArg Except.ok))
    (fun h _ now _ => ⟨rfl, (h.tick now).put _ _⟩) fun h _ now => ⟨rfl, (h.tick now).clear _⟩

end MemoryStore

end Playbook
