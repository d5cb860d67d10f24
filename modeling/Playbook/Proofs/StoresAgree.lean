import Mathlib.Algebra.Order.Group.Defs
import Playbook.ContextStore.File
import Playbook.ContextStore.Keyed
import Playbook.Proofs.JsonReadBack
import Playbook.Proofs.Places
import Playbook.Proofs.Shelf

/-!
# Stores agree

The stores in files and in a key-value store keep step with a shelf as the one in memory does
(`FileStore.follows`, `KeyedStore.follows`): what they hold under a user is the text of what is on
the shelf, and it reads back. Three stores that keep step with one shelf answer alike
(`stores_agree`).
-/

namespace Playbook

variable {θ : Type}

/-- A user whose name is that of a file, and data whose values have a text. -/
def Request.Plain (request : Request) : Prop :=
  '/' ∉ request.user.toList ∧
    match request with
    | put _ data => ∀ context, Context.ofData data = .ok context → context.Short
    | _ => True

namespace FileStore

variable {store : FileStore θ} {disk : Disk θ} {shelf : Shelf θ}

/-- The folder of a store is there, and the files of users hold the text of what is on a shelf and
were written at its birth. -/
structure Holds (store : FileStore θ) (disk : Disk θ) (shelf : Shelf θ) : Prop where
  folder : disk.locate store.folder ∈ disk.folders
  files : ∀ user, '/' ∉ user.toList →
    (disk.file? (store.path user)).map (fun file => (Except.ok file.text, file.modified)) =
      (shelf user).map fun kept => (JsonText.writeLines kept.context, kept.since)

section Place

variable {user : String}

theorem locate_path (hf : store.folder ≠ "") (hu : '/' ∉ user.toList) :
    disk.locate (store.path user) = disk.locate store.folder ++ [user ++ ".json"] := by
  have hl : 5 ≤ (user ++ ".json").toList.length := by simp
  refine Disk.locate_join hf (by simp [hu]) ⟨?_, ?_, ?_⟩ disk <;>
    (intro h; rw [h] at hl; exact absurd hl (by decide))

theorem locate_path_inj (disk : Disk θ) (hf : store.folder ≠ "") (hu : '/' ∉ user.toList)
    {other : String} (ho : '/' ∉ other.toList) :
    disk.locate (store.path other) = disk.locate (store.path user) ↔ other = user := by
  rw [locate_path hf hu, locate_path hf ho]
  simp

end Place

namespace Holds

variable (hf : store.folder ≠ "") {user : String} (hu : '/' ∉ user.toList)

theorem tick (h : store.Holds disk shelf) (now : θ) :
    store.Holds { disk with now := now } shelf :=
  ⟨h.folder, h.files⟩

include hf hu

theorem remove (h : store.Holds disk shelf) :
    store.Holds (disk.remove (store.path user)) (Function.update shelf user none) where
  folder := h.folder
  files other ho := by
    have hp := locate_path_inj disk hf hu ho
    change ((disk.files.erase _).get? (disk.locate (store.path other))).map _ = _
    simp only [OrderedMap.get?_erase, Function.update_apply, hp]
    split
    · rfl
    · exact h.files other ho

theorem put_eq (h : store.Holds disk shelf) {context : Context} {text : String}
    (ht : JsonText.writeLines context = .ok text) :
    store.put user context disk =
      (.ok (), { disk with
        files := disk.files.insert (disk.locate (store.path user)) ⟨text, disk.now⟩ }) := by
  have hl : (disk.locate (store.path user)).dropLast ∈ disk.folders := by
    rw [locate_path hf hu, List.dropLast_concat]
    exact h.folder
  unfold FileStore.put
  rw [Disk.write_of_mem hl, ht]
  dsimp only
  rw [Disk.write_of_mem hl]

theorem put (h : store.Holds disk shelf) {context : Context} (hc : context.Short) :
    (store.put user context disk).1 = .ok () ∧
      store.Holds (store.put user context disk).2
        (Function.update shelf user (some ⟨context, disk.now⟩)) := by
  obtain ⟨text, ht⟩ := JsonText.exists_writeLines hc
  rw [h.put_eq hf hu ht]
  refine ⟨rfl, h.folder, fun other ho => ?_⟩
  have hp := locate_path_inj disk hf hu ho
  change (OrderedMap.get? _ (disk.locate (store.path other))).map _ = _
  simp only [OrderedMap.get?_insert, Function.update_apply, hp]
  split
  · simp [ht]
  · exact h.files other ho

section Lifetime

variable [AddCommGroup θ] [LinearOrder θ] [IsOrderedAddMonoid θ]

omit hf in
theorem isExpired_iff (h : store.Holds disk shelf) :
    (disk.file? (store.path user)).any (store.isExpired disk) = true ↔
      ∃ kept, shelf user = some kept ∧ ¬Shelf.Lives store.lifetime disk.now kept := by
  have hfile := h.files user hu
  unfold isExpired Shelf.Lives
  rcases hd : disk.file? (store.path user) with _ | file <;>
    rcases hk : shelf user with _ | kept
  · simp
  · simp [hd, hk] at hfile
  · simp [hd, hk] at hfile
  · have hm : file.modified = kept.since := by
      rw [hd, hk] at hfile
      exact congrArg Prod.snd (Option.some.inj hfile)
    rcases hl : store.lifetime with _ | l
    · simp
    · simp [hm, le_sub_iff_add_le']

/-- A file that has outlived the lifetime is removed when it is asked for. -/
theorem forget (h : store.Holds disk shelf) :
    store.Holds
      (if (disk.file? (store.path user)).any (store.isExpired disk) then
        disk.remove (store.path user) else disk)
      (Function.update shelf user (shelf.alive store.lifetime disk.now user)) := by
  split_ifs with he
  · rw [Shelf.alive_eq_none ((h.isExpired_iff hu).1 he)]
    exact h.remove hf hu
  · rw [Shelf.alive_eq_self fun hk => he ((h.isExpired_iff hu).2 hk), Function.update_eq_self]
    exact h

theorem get (h : store.Holds disk shelf) :
    (store.get user disk).1 = .ok (shelf.found store.lifetime disk.now user).context ∧
      store.Holds (store.get user disk).2
        (Function.update shelf user (some (shelf.found store.lifetime disk.now user))) := by
  have hforget := h.forget hf hu
  have hn : (if (disk.file? (store.path user)).any (store.isExpired disk) then
      disk.remove (store.path user) else disk).now = disk.now := by
    split_ifs <;> rfl
  have hfile := hforget.files user hu
  rw [Function.update_self] at hfile
  unfold FileStore.get Shelf.found
  dsimp only
  generalize (if (disk.file? (store.path user)).any (store.isExpired disk) then
    disk.remove (store.path user) else disk) = left at hforget hn hfile ⊢
  rcases ha : shelf.alive store.lifetime disk.now user with _ | kept
  · rw [ha] at hforget hfile
    rw [Option.map_none, Option.map_eq_none_iff] at hfile
    obtain ⟨hp, hp'⟩ := hforget.put hf hu (OrderedMap.every_empty _)
    rw [Function.update_idem, hn] at hp'
    rw [hfile]
    dsimp only
    rcases hs : store.put user .empty left with ⟨_ | _, after⟩
    · rw [hs] at hp
      cases hp
    · rw [hs] at hp'
      exact ⟨rfl, hp'⟩
  · rw [ha] at hforget hfile
    obtain ⟨file, hd, hk⟩ := Option.map_eq_some_iff.1 hfile
    rw [hd]
    exact ⟨JsonText.read_writeLines (congrArg Prod.fst hk).symm, hforget⟩

end Lifetime

end Holds

section Follows

variable [AddCommGroup θ] [LinearOrder θ] [IsOrderedAddMonoid θ]

/-- The store keeps step with a shelf. -/
theorem follows (store : FileStore θ) (hf : store.folder ≠ "") :
    store.source.Follows (fun now disk => { disk with now := now }) store.lifetime Request.Plain
      store.Holds :=
  .of_steps (fun h now => h.tick now) (fun h hr now => (h.tick now).get hf hr.1)
    (fun h hr now hd => (h.tick now).put hf hr.1 (hr.2 _ hd))
    fun h hr now => ⟨rfl, (h.tick now).remove hf hr.1⟩

end Follows

theorem holds_makeFolder (store : FileStore θ) (disk : Disk θ)
    (hd : ∀ user, '/' ∉ user.toList → disk.isThere (store.path user) = false) :
    store.Holds (disk.makeFolder store.folder) .empty where
  folder := Disk.locate_makeFolder disk store.folder
  files user hu := by
    have hno := hd user hu
    rw [Disk.isThere, Bool.or_eq_false_iff, Option.isSome_eq_false_iff,
      Option.isNone_iff_eq_none] at hno
    change (disk.file? (store.path user)).map _ = _
    rw [hno.1]
    rfl

end FileStore

namespace KeyedStore

variable {store : KeyedStore} {values : KeyValues} {shelf : Shelf θ}

/-- The keys of users have the text of what is on a shelf. -/
def Holds (store : KeyedStore) (values : KeyValues) (shelf : Shelf θ) : Prop :=
  ∀ user, (values.texts.get? (store.key user)).map Except.ok =
    (shelf user).map fun kept => JsonText.writeLine kept.context

theorem key_inj {user other : String} : store.key other = store.key user ↔ other = user := by
  simp [key]

theorem texts_send_writing (user text : String) :
    (values.send (store.writing user text)).texts = values.texts.insert (store.key user) text := by
  unfold writing
  split_ifs <;> rfl

namespace Holds

variable (h : store.Holds values shelf) (user : String)
include h

theorem send_get : store.Holds (values.send (.get (store.key user))) shelf := h

theorem delete :
    store.Holds (values.send (.delete (store.key user))) (Function.update shelf user none) := by
  intro other
  change ((values.texts.erase _).get? _).map _ = _
  simp only [OrderedMap.get?_erase, Function.update_apply, key_inj]
  split
  · rfl
  · exact h other

theorem put {context : Context} (hc : context.Short) (now : θ) :
    (store.put user context values).1 = .ok () ∧
      store.Holds (store.put user context values).2
        (Function.update shelf user (some ⟨context, now⟩)) := by
  obtain ⟨text, ht⟩ := JsonText.exists_writeLine hc
  unfold KeyedStore.put
  rw [ht]
  refine ⟨rfl, fun other => ?_⟩
  simp only [texts_send_writing, OrderedMap.get?_insert, Function.update_apply, key_inj]
  split
  · simp [ht]
  · exact h other

variable [Add θ] [LE θ] [DecidableLE θ]

theorem get (now : θ) :
    (store.get user values).1 = .ok (shelf.found none now user).context ∧
      store.Holds (store.get user values).2
        (Function.update shelf user (some (shelf.found none now user))) := by
  have hv := h user
  unfold KeyedStore.get Shelf.found
  rw [Shelf.alive_none]
  rcases hs : shelf user with _ | kept
  · rw [hs, Option.map_none, Option.map_eq_none_iff] at hv
    obtain ⟨hp, hp'⟩ := (h.send_get user).put user (OrderedMap.every_empty _) now
    rw [hv]
    dsimp only
    rcases ha : store.put user .empty (values.send (.get (store.key user))) with ⟨_ | _, after⟩
    · rw [ha] at hp
      cases hp
    · rw [ha] at hp'
      exact ⟨rfl, hp'⟩
  · rw [hs] at hv
    obtain ⟨text, ht, hw⟩ := Option.map_eq_some_iff.1 hv
    rw [ht]
    refine ⟨JsonText.read_writeLine hw.symm, ?_⟩
    rw [Option.getD_some, ← hs, Function.update_eq_self]
    exact h.send_get user

end Holds

/-- The store keeps step with a shelf on which nothing ends. -/
theorem follows [Add θ] [LE θ] [DecidableLE θ] (store : KeyedStore) :
    store.source.Follows (fun (_ : θ) values => values) none Request.Plain store.Holds :=
  .of_steps (fun h _ => h) (fun h _ now => h.get _ now) (fun h hr now hd => h.put _ (hr.2 _ hd) now)
    fun h _ _ => ⟨rfl, h.delete _⟩

end KeyedStore

section Agree

variable [AddCommGroup θ] [LinearOrder θ] [IsOrderedAddMonoid θ]

/-- After every history the three stores without a lifetime answer as the last put tells, and those
in memory and in files answer alike with any lifetime. Data that make no context are refused
everywhere and change nothing. -/
theorem stores_agree {folder : String} (hf : folder ≠ "") {disk : Disk θ}
    (hd : ∀ user, '/' ∉ user.toList → disk.isThere (Disk.join folder (user ++ ".json")) = false)
    (keyStart : String) (start : θ) {past : List (θ × Request)} (hp : ∀ e ∈ past, e.2.Plain)
    (now : θ) {request : Request} (hr : request.Plain) :
    let file (lifetime : Option θ) : FileStore θ := ⟨folder, lifetime⟩
    let keyed : KeyedStore := ⟨keyStart, .null⟩
    let memoryState (lifetime : Option θ) : MemoryStore θ :=
      { MemoryStore.source.run (fun now store => { store with now := now })
          (.fresh lifetime start) past with now := now }
    let fileState (lifetime : Option θ) : Disk θ :=
      { (file lifetime).source.run (fun now disk => { disk with now := now })
          (disk.makeFolder folder) past with now := now }
    let keyedState : KeyValues :=
      keyed.source.run (fun (_ : θ) values => values) .fresh past
    ((MemoryStore.source.ask request (memoryState none)).1 =
        Shelf.lastReply (past.map Prod.snd) request ∧
      ((file none).source.ask request (fileState none)).1 =
        Shelf.lastReply (past.map Prod.snd) request ∧
      (keyed.source.ask request keyedState).1 =
        Shelf.lastReply (past.map Prod.snd) request) ∧
      (∀ lifetime, (MemoryStore.source.ask request (memoryState lifetime)).1 =
        ((file lifetime).source.ask request (fileState lifetime)).1) ∧
      ∀ user data fault, request = .put user data → Context.ofData data = .error fault →
        (∀ lifetime, MemoryStore.source.ask request (memoryState lifetime) =
            (.error fault, memoryState lifetime) ∧
          (file lifetime).source.ask request (fileState lifetime) =
            (.error fault, fileState lifetime)) ∧
          keyed.source.ask request keyedState = (.error fault, keyedState) := by
  intro file keyed memoryState fileState keyedState
  have hm (lifetime : Option θ) : (MemoryStore.source.ask request (memoryState lifetime)).1 =
      (Shelf.ofHistory lifetime past).reply lifetime now request :=
    (MemoryStore.follows lifetime).reply_run (MemoryStore.holds_fresh lifetime start)
      (fun _ _ => trivial) trivial now
  have hfile (lifetime : Option θ) :
      ((file lifetime).source.ask request (fileState lifetime)).1 =
        (Shelf.ofHistory lifetime past).reply lifetime now request :=
    (FileStore.follows (file lifetime) hf).reply_run
      (FileStore.holds_makeFolder _ disk hd) hp hr now
  have hk : (keyed.source.ask request keyedState).1 =
      (Shelf.ofHistory none past).reply none now request :=
    (KeyedStore.follows keyed).reply_run (fun _ => rfl) hp hr now
  refine ⟨⟨?_, ?_, ?_⟩, fun lifetime => (hm _).trans (hfile _).symm, ?_⟩
  · rw [hm, Shelf.reply_ofHistory]
  · rw [hfile, Shelf.reply_ofHistory]
  · rw [hk, Shelf.reply_ofHistory]
  · rintro user data fault rfl hdata
    exact ⟨fun lifetime => ⟨ContextSource.ask_put_of_error _ hdata _,
      ContextSource.ask_put_of_error _ hdata _⟩, ContextSource.ask_put_of_error _ hdata _⟩

/-- A put of a decimal and a text, read from each of the three stores. -/
theorem stores_agree_on_customer :
    let data : OrderedMap String Datum := .ofEntries
      [("customer_id", .text "C001"), ("amount", .decimal (.finite false 5 0))]
    let read : Except Fault (Option Context) :=
      .ok (some (.ofEntries [("customer_id", .text "C001"), ("amount", .int 5)]))
    let past : List (Int × Request) := [(1, .get "u2"), (0, .put "u1" data)]
    let disk : Disk Int := ⟨"work", [[]], .empty, 0⟩
    let file : FileStore Int := ⟨"contexts", none⟩
    let keyed : KeyedStore := ⟨"kgflow:context:", .null⟩
    (∀ user, '/' ∉ user.toList →
        disk.isThere (Disk.join "contexts" (user ++ ".json")) = false) ∧
      (∀ e ∈ past, e.2.Plain) ∧ (Request.get "u1").Plain ∧
      (MemoryStore.source.ask (.get "u1")
        { MemoryStore.source.run (fun now store => { store with now := now })
            (.fresh none 0) past with now := 2 }).1 = read ∧
      (file.source.ask (.get "u1")
        { file.source.run (fun now disk => { disk with now := now })
            (disk.makeFolder "contexts") past with now := 2 }).1 = read ∧
      (keyed.source.ask (.get "u1")
        (keyed.source.run (fun (_ : Int) values => values) .fresh past)).1 = read := by
  intro data read past disk file keyed
  have hd : ∀ user, '/' ∉ user.toList →
      disk.isThere (Disk.join "contexts" (user ++ ".json")) = false := by
    intro user hu
    have hf : file.folder ≠ "" := by decide
    have hl : disk.locate (file.path user) = disk.locate file.folder ++ [user ++ ".json"] :=
      FileStore.locate_path hf hu
    have hn : disk.locate (file.path user) ∉ disk.folders := by simp [hl, disk]
    have hno : disk.isFolder (file.path user) = false := by simpa [Disk.isFolder] using hn
    exact hno
  have hp : ∀ e ∈ past, e.2.Plain := by
    intro e he
    rcases List.mem_pair.1 he with rfl | rfl
    · exact ⟨by decide, trivial⟩
    · refine ⟨by decide, fun context h => ?_⟩
      cases h
      intro e he
      rcases List.mem_pair.1 he with rfl | rfl
      · exact trivial
      · exact Value.short_int (n := 1) (by decide) (by decide)
  have hr : (Request.get "u1").Plain := ⟨by decide, trivial⟩
  exact ⟨hd, hp, hr, (stores_agree (by decide) hd "kgflow:context:" 0 hp 2 hr).1⟩

end Agree

end Playbook
