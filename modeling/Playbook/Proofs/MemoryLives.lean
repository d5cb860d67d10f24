import Playbook.Proofs.RoundingOrder
import Playbook.Proofs.Shelf

/-!
# Lives in memory

The store in memory forgets what has ended only when it is asked for or purged, so that what it
holds (`MemoryStore.held`) may differ from the shelf of its requests. On a clock that does not go
back the two agree on all that is alive (`alive_held`): what has ended stays so, and a purge takes
nothing else. Answers and listings therefore depend on the requests alone (`MemoryStore.lives`).
-/

namespace Playbook

namespace MemoryStore

/-- What is done with a store: a request of a user, or one of the two things that concern them
all. -/
inductive Visit where
  | ask (request : Request)
  | purge
  | users

def Visit.request? : Visit → Option Request
  | ask request => some request
  | purge | users => none

variable {θ : Type}

/-- The requests in a history of visits. -/
def requests (past : List (θ × Visit)) : List (θ × Request) :=
  past.filterMap fun e => e.2.request?.map (e.1, ·)

theorem requests_purge (later : List (θ × Visit)) (now : θ) (earlier : List (θ × Visit)) :
    requests (later ++ (now, .purge) :: earlier) = requests (later ++ earlier) := by
  rw [requests, requests, List.filterMap_append, List.filterMap_append]
  rfl

variable [Add θ] [LE θ] [DecidableLE θ]

/-- The store after a visit at a time. -/
def visit (store : MemoryStore θ) (now : θ) : Visit → MemoryStore θ
  | .ask request => (source.ask request { store with now := now }).2
  | .purge => { store with now := now }.purge.2
  | .users => { store with now := now }

/-- The store after a history of visits with their times, the latest first. -/
def afterVisits (store : MemoryStore θ) : List (θ × Visit) → MemoryStore θ
  | [] => store
  | (now, v) :: past => (store.afterVisits past).visit now v

/-- What the store holds after a history: of what has ended, what was not purged since. -/
def held (lifetime : Option θ) : List (θ × Visit) → Shelf θ
  | [] => .empty
  | (now, .ask request) :: past => (held lifetime past).after lifetime now request
  | (now, .purge) :: past => (held lifetime past).alive lifetime now
  | (_, .users) :: past => held lifetime past

namespace Holds

variable {lifetime : Option θ} {store : MemoryStore θ} {shelf : Shelf θ}

omit [LE θ] [DecidableLE θ] in
theorem mem_keys_iff (h : store.Holds lifetime shelf) {user : String} :
    user ∈ store.contexts.keys ↔ ∃ kept, shelf user = some kept := by
  rw [← not_iff_not, ← OrderedMap.get?_eq_none_iff, h.contexts, Option.map_eq_none_iff,
    Option.eq_none_iff_forall_ne_some, not_exists]

omit [LE θ] [DecidableLE θ] in
theorem mem_deadlines_iff (h : store.Holds lifetime shelf) {user : String} :
    user ∈ store.deadlines.keys ↔ ∃ kept, shelf user = some kept ∧ lifetime ≠ none := by
  rw [← not_iff_not, ← OrderedMap.get?_eq_none_iff, h.deadlines]
  rcases shelf user with _ | kept
  · simp
  · cases lifetime <;> simp

theorem mem_ended_iff (h : store.Holds lifetime shelf) {user : String} :
    user ∈ store.contexts.keys.filter store.isExpired ↔
      ∃ kept, shelf user = some kept ∧ ¬Shelf.Lives lifetime store.now kept := by
  rw [List.mem_filter, h.mem_keys_iff, h.isExpired_iff]
  exact ⟨And.right, fun he => ⟨he.imp fun _ => And.left, he⟩⟩

theorem mem_users_iff (h : store.Holds lifetime shelf) {user : String} :
    user ∈ store.users ↔ ∃ kept, shelf user = some kept ∧ Shelf.Lives lifetime store.now kept := by
  rw [users, List.mem_filter, h.mem_keys_iff, Bool.not_eq_true', Bool.eq_false_iff, ne_eq,
    h.isExpired_iff]
  constructor
  · rintro ⟨⟨kept, hk⟩, he⟩
    exact ⟨kept, hk, by_contra fun hl => he ⟨kept, hk, hl⟩⟩
  · rintro ⟨kept, hk, hl⟩
    refine ⟨⟨kept, hk⟩, fun ⟨kept', hk', hl'⟩ => hl' ?_⟩
    rw [hk] at hk'
    cases hk'
    exact hl

omit [LE θ] [DecidableLE θ] in
theorem clearAll (h : store.Holds lifetime shelf) (ended : List String) :
    (ended.foldl MemoryStore.clear store).Holds lifetime fun user =>
      if user ∈ ended then none else shelf user := by
  induction ended generalizing store shelf with
  | nil => simpa using h
  | cons first ended ih =>
    have hs : (fun user => if user ∈ first :: ended then none else shelf user) = fun user =>
        if user ∈ ended then none else Function.update shelf first none user := by
      funext user
      by_cases hu : user = first
      · simp [hu]
      · simp [hu]
    rw [hs]
    exact ih (h.clear first)

theorem purge (h : store.Holds lifetime shelf) :
    store.purge.2.Holds lifetime (shelf.alive lifetime store.now) := by
  have hs : shelf.alive lifetime store.now = fun user =>
      if user ∈ store.contexts.keys.filter store.isExpired then none else shelf user := by
    funext user
    simp only [h.mem_ended_iff, Shelf.alive]
    rcases hk : shelf user with _ | kept
    · simp
    · by_cases hl : Shelf.Lives lifetime store.now kept
      · simp [hl]
      · simp [hl]
  rw [hs]
  exact h.clearAll _

end Holds

theorem holds_afterVisits (lifetime : Option θ) (start : θ) (past : List (θ × Visit)) :
    ((fresh lifetime start).afterVisits past).Holds lifetime (held lifetime past) := by
  induction past with
  | nil => exact holds_fresh lifetime start
  | cons e past ih =>
    obtain ⟨now, v⟩ := e
    cases v with
    | ask request => exact (follows lifetime).after ih trivial now
    | purge => exact (ih.tick now).purge
    | users => exact ih.tick now

section Clock

variable [IsTrans θ (· ≤ ·)] {lifetime : Option θ}

omit [DecidableLE θ] in
theorem lives_of_le {now later : θ} (h : now ≤ later) {kept : Kept θ}
    (hl : Shelf.Lives lifetime later kept) : Shelf.Lives lifetime now kept :=
  fun l hm he => hl l hm (Trans.trans he h)

theorem alive_alive {now later : θ} (h : now ≤ later) (shelf : Shelf θ) :
    (shelf.alive lifetime now).alive lifetime later = shelf.alive lifetime later := by
  funext user
  rw [Shelf.alive, Shelf.alive, Shelf.alive, Option.filter_filter]
  congr 1
  funext kept
  by_cases hl : Shelf.Lives lifetime later kept
  · simp [hl, lives_of_le h hl]
  · simp [hl]

omit [IsTrans θ (· ≤ ·)] in
theorem alive_update (now : θ) (shelf : Shelf θ) (user : String) (kept : Option (Kept θ)) :
    Shelf.alive lifetime now (Function.update shelf user kept) =
      Function.update (shelf.alive lifetime now) user
        (kept.filter fun kept => Shelf.Lives lifetime now kept) := by
  funext k
  by_cases hk : k = user
  · subst hk
    simp [Shelf.alive]
  · simp [Shelf.alive, hk]

omit [IsTrans θ (· ≤ ·)] in
/-- What is alive after a request depends on what was alive before it. -/
theorem alive_after {now later : θ} {shelf shelf' : Shelf θ}
    (hn : shelf.alive lifetime now = shelf'.alive lifetime now)
    (hl : shelf.alive lifetime later = shelf'.alive lifetime later) (request : Request) :
    (shelf.after lifetime now request).alive lifetime later =
      (shelf'.after lifetime now request).alive lifetime later := by
  cases request with
  | get user => simp only [Shelf.after, Shelf.found, alive_update, hn, hl]
  | put user data =>
    simp only [Shelf.after]
    split
    · simp only [alive_update, hl]
    · exact hl
  | clear user => simp only [Shelf.after, alive_update, hl]

/-- What is alive does not depend on what was purged or listed before. -/
theorem alive_held {past : List (θ × Visit)}
    (hp : past.Pairwise fun later earlier => earlier.1 ≤ later.1) {now : θ}
    (hn : ∀ e ∈ past, e.1 ≤ now) :
    (held lifetime past).alive lifetime now =
      (Shelf.ofHistory lifetime (requests past)).alive lifetime now := by
  induction past generalizing now with
  | nil => rfl
  | cons e past ih =>
    obtain ⟨t, v⟩ := e
    obtain ⟨ht, hp⟩ := List.pairwise_cons.1 hp
    have ht' := ih hp (fun e he => ht e he)
    have hn' := ih hp fun e he => hn e (List.mem_cons_of_mem _ he)
    cases v with
    | ask request => exact alive_after ht' hn' request
    | purge => exact (alive_alive (hn _ List.mem_cons_self) _).trans hn'
    | users => exact hn'

section Visits

variable (lifetime) (start : θ) {past : List (θ × Visit)}
  (hp : past.Pairwise fun later earlier => earlier.1 ≤ later.1) {now : θ}
  (hn : ∀ e ∈ past, e.1 ≤ now)
include hp hn

theorem reply_afterVisits (request : Request) :
    (source.ask request { (fresh lifetime start).afterVisits past with now := now }).1 =
      (Shelf.ofHistory lifetime (requests past)).reply lifetime now request := by
  rw [(follows lifetime).reply (holds_afterVisits lifetime start past) trivial now]
  cases request with
  | get user => simp only [Shelf.reply, Shelf.found, alive_held hp hn]
  | _ => rfl

theorem mem_users_afterVisits {user : String} :
    user ∈ users { (fresh lifetime start).afterVisits past with now := now } ↔
      ∃ kept, Shelf.ofHistory lifetime (requests past) user = some kept ∧
        Shelf.Lives lifetime now kept := by
  rw [((holds_afterVisits lifetime start past).tick now).mem_users_iff]
  simp only [← Shelf.alive_eq_some_iff, alive_held hp hn]

end Visits

/-- A store in memory is a map from users to contexts with their births. -/
theorem lives (lifetime : Option θ) (start : θ) {past : List (θ × Visit)}
    (hp : past.Pairwise fun later earlier => earlier.1 ≤ later.1) {now : θ}
    (hn : ∀ e ∈ past, e.1 ≤ now) :
    let store : MemoryStore θ := { (fresh lifetime start).afterVisits past with now := now }
    let shelf := Shelf.ofHistory lifetime (requests past)
    -- requests are answered as by a map of lives
    (∀ request, (source.ask request store).1 = shelf.reply lifetime now request) ∧
      -- the users with a context that is alive are listed
      (store.users.Nodup ∧ ∀ user, user ∈ store.users ↔
        ∃ kept, shelf user = some kept ∧ Shelf.Lives lifetime now kept) ∧
      -- a purge counts what is still held and not alive
      (∀ user, store.contexts.get? user = (held lifetime past user).map Kept.context) ∧
      (∃ ended : List String, ended.Nodup ∧ store.purge.1 = ended.length ∧ ∀ user, user ∈ ended ↔
        ∃ kept, held lifetime past user = some kept ∧ ¬Shelf.Lives lifetime now kept) ∧
      -- without one of the purges, answers and listings are the same
      (∀ later t earlier, past = later ++ (t, .purge) :: earlier →
        let unpurged : MemoryStore θ :=
          { (fresh lifetime start).afterVisits (later ++ earlier) with now := now }
        (∀ request, (source.ask request store).1 = (source.ask request unpurged).1) ∧
          ∀ user, user ∈ store.users ↔ user ∈ unpurged.users) ∧
      -- contexts and deadlines belong together
      (∀ user ∈ store.deadlines.keys, user ∈ store.contexts.keys) ∧
      (lifetime ≠ none → ∀ user ∈ store.contexts.keys, user ∈ store.deadlines.keys) := by
  intro store shelf
  have hh : store.Holds lifetime (held lifetime past) :=
    (holds_afterVisits lifetime start past).tick now
  refine ⟨reply_afterVisits lifetime start hp hn,
    ⟨store.contexts.keys_nodup.filter _, fun user => mem_users_afterVisits lifetime start hp hn⟩,
    hh.contexts, ⟨_, store.contexts.keys_nodup.filter _, rfl, fun user => hh.mem_ended_iff⟩, ?_,
    fun user hu => ?_, fun hl user hu => ?_⟩
  · rintro later t earlier rfl
    have hs : (later ++ earlier).Sublist (later ++ (t, .purge) :: earlier) :=
      (List.Sublist.refl later).append (List.sublist_cons_self _ _)
    have hr : requests (later ++ (t, .purge) :: earlier) = requests (later ++ earlier) :=
      requests_purge later t earlier
    have hp' := hp.sublist hs
    have hn' : ∀ e ∈ later ++ earlier, e.1 ≤ now := fun e he => hn e (hs.subset he)
    refine ⟨fun request => ?_, fun user => ?_⟩
    · rw [reply_afterVisits lifetime start hp hn, reply_afterVisits lifetime start hp' hn', hr]
    · rw [mem_users_afterVisits lifetime start hp hn, mem_users_afterVisits lifetime start hp' hn',
        hr]
  · obtain ⟨kept, hk, -⟩ := hh.mem_deadlines_iff.1 hu
    exact hh.mem_keys_iff.2 ⟨kept, hk⟩
  · obtain ⟨kept, hk⟩ := hh.mem_keys_iff.1 hu
    exact hh.mem_deadlines_iff.2 ⟨kept, hk, hl⟩

/-- With a lifetime of 5, of two contexts put at 0 and 3 the second is alive at 6. -/
theorem lives_at_six :
    let data : OrderedMap String Datum := OrderedMap.empty.insert "amount" (.int 5)
    let past : List (Nat × Visit) :=
      [(4, .ask (.get "u1")), (3, .ask (.put "u2" data)), (0, .ask (.put "u1" data))]
    let store : MemoryStore Nat := { (fresh (some 5) 0).afterVisits past with now := 6 }
    past.Pairwise (fun later earlier => earlier.1 ≤ later.1) ∧ (∀ e ∈ past, e.1 ≤ 6) ∧
      (source.ask (.get "u1") store).1 = .ok (some .empty) ∧
      (source.ask (.get "u2") store).1 = .ok (some (OrderedMap.empty.insert "amount" (.int 5))) ∧
      "u1" ∉ store.users ∧ "u2" ∈ store.users := by
  intro data past store
  have hp : past.Pairwise fun later earlier => earlier.1 ≤ later.1 := by simp [past]
  have hn : ∀ e ∈ past, e.1 ≤ 6 := by simp [past]
  obtain ⟨hr, ⟨-, hu⟩, -⟩ := lives (some 5) 0 hp hn
  refine ⟨hp, hn, (hr _).trans ?_, (hr _).trans ?_, fun h => ?_, (hu _).2 ?_⟩
  · rfl
  · rfl
  · obtain ⟨kept, hk, hl⟩ := (hu _).1 h
    cases hk
    exact hl 5 rfl (by decide)
  · refine ⟨_, rfl, fun l hl => ?_⟩
    cases hl
    decide

end Clock

end MemoryStore

end Playbook
