import Playbook.Proofs.StoresAgree

/-!
# Puts that fail

A put into files empties the file of the user before it makes the text, so a context that has no
text leaves an empty file, which is no JSON (`FileStore.putData_leaves`). Every other put that fails
leaves the disk as it was. The store in a key-value store makes the text first, and a put that fails
there changes nothing (`KeyedStore.put_or_same`).
-/

namespace Playbook

variable {θ : Type}

namespace FileStore

variable (store : FileStore θ) (user : String) (disk : Disk θ)

/-- The disk on which the file of a user holds a text that was just written. -/
def holding (text : String) : Disk θ :=
  { disk with files := disk.files.insert (disk.locate (store.path user)) ⟨text, disk.now⟩ }

theorem file?_holding (text path : String) : (store.holding user disk text).file? path =
    if disk.locate path = disk.locate (store.path user) then some ⟨text, disk.now⟩
    else disk.file? path :=
  OrderedMap.get?_insert ..

variable {store user disk} {context : Context}

theorem put_of_not_mem (h : (disk.locate (store.path user)).dropLast ∉ disk.folders) :
    store.put user context disk = (.error (.missingFile (store.path user)), disk) := by
  simp [FileStore.put, Disk.write, h]

theorem folder_mem (hf : store.folder ≠ "") (hu : '/' ∉ user.toList)
    (h : disk.locate store.folder ∈ disk.folders) :
    (disk.locate (store.path user)).dropLast ∈ disk.folders := by
  rwa [locate_path hf hu, List.dropLast_concat]

section Folder

variable (h : (disk.locate (store.path user)).dropLast ∈ disk.folders)
include h

theorem put_of_text {text : String} (ht : JsonText.writeLines context = .ok text) :
    store.put user context disk = (.ok (), store.holding user disk text) := by
  unfold FileStore.put
  rw [Disk.write_of_mem h, ht]
  dsimp only
  rw [Disk.write_of_mem h]
  rfl

theorem put_of_not_short (hc : ¬ context.Short) :
    store.put user context disk = (.error .integerTooLong, store.holding user disk "") := by
  unfold FileStore.put
  rw [Disk.write_of_mem h, JsonText.writeLines_of_not_short hc]
  rfl

end Folder

section Get

variable [Sub θ] [LE θ] [DecidableLE θ]

/-- A file that was written and has not outlived the lifetime is read and left. -/
theorem get_holding {text : String} {now : θ}
    (hl : ∀ lifetime ∈ store.lifetime, ¬ lifetime ≤ now - disk.now) :
    store.get user { store.holding user disk text with now := now } =
      (JsonText.read text >>= Context.ofDocument,
        { store.holding user disk text with now := now }) := by
  have hf : Disk.file? { store.holding user disk text with now := now } (store.path user) =
      some ⟨text, disk.now⟩ :=
    (file?_holding ..).trans (if_pos rfl)
  have he : store.isExpired { store.holding user disk text with now := now } ⟨text, disk.now⟩ =
      false := by
    unfold isExpired
    rcases hs : store.lifetime with _ | lifetime
    · rfl
    · simpa using hl lifetime hs
  unfold FileStore.get
  simp [hf, he]

theorem read_empty : JsonText.read "" =
    .error (.malformedJson "Expecting value: line 1 column 1 (char 0)") := by
  rfl

theorem putData_of_ok {data : OrderedMap String Datum} (h : Context.ofData data = .ok context) :
    store.source.putData user data disk = store.put user context disk := by
  simp only [ContextSource.putData, h]
  rfl

/-- A put stores the text of the context, or fails and leaves every file as it was, unless the
context has an integer that is too long for a text: that put fails with the file of the user
emptied, and for as long as the file lives, reading the context of the user fails.

This is for texts of whole characters and a path at which there is no folder. A put of a text with
half a character alone in it empties the file too, and one at a folder fails before that. -/
theorem putData_leaves (store : FileStore θ) (user : String) (data : OrderedMap String Datum)
    (disk : Disk θ) :
    let put := store.source.putData user data disk
    (∃ context text, Context.ofData data = .ok context ∧ JsonText.writeLines context = .ok text ∧
      put = (.ok (), store.holding user disk text)) ∨
    (∃ fault, put = (.error fault, disk) ∧ (Context.ofData data = .error fault ∨
      (disk.locate (store.path user)).dropLast ∉ disk.folders)) ∨
    ∃ context, Context.ofData data = .ok context ∧ ¬ context.Short ∧
      put = (.error .integerTooLong, store.holding user disk "") ∧
      ∀ now, (∀ lifetime ∈ store.lifetime, ¬ lifetime ≤ now - disk.now) →
        store.get user { put.2 with now := now } =
          (.error (.malformedJson "Expecting value: line 1 column 1 (char 0)"),
            { put.2 with now := now }) := by
  intro put
  rcases hd : Context.ofData data with fault | context
  · exact .inr (.inl ⟨fault, by simp [put, ContextSource.putData, hd], .inl rfl⟩)
  rw [show put = _ from putData_of_ok hd]
  by_cases hf : (disk.locate (store.path user)).dropLast ∈ disk.folders
  · by_cases hc : context.Short
    · obtain ⟨text, ht⟩ := JsonText.exists_writeLines hc
      exact .inl ⟨context, text, rfl, ht, put_of_text hf ht⟩
    · rw [put_of_not_short hf hc]
      refine .inr (.inr ⟨context, rfl, hc, rfl, fun now hl => ?_⟩)
      rw [get_holding hl, read_empty]
      rfl
  · exact .inr (.inl ⟨_, put_of_not_mem hf, .inr hf⟩)

/-- A decimal whose integer is too long for a text is accepted, and empties the file. -/
theorem putData_of_le {n : Nat} (hn : Text.digitLimit ≤ n) (name : String)
    (h : (disk.locate (store.path user)).dropLast ∈ disk.folders) :
    store.source.putData user (.ofEntries [(name, .decimal (.finite false 1 n))]) disk =
      (.error .integerTooLong, store.holding user disk "") := by
  have hv : Datum.toValue (.decimal (.finite false 1 n)) = .ok (.int (Nat.pow 10 n : Nat)) := by
    simp [Datum.toValue, Datum.ofDecimal, Decimal.toInt?, Decimal.withSign]
  have hd : Context.ofData (.ofEntries [(name, .decimal (.finite false 1 n))]) =
      .ok (.ofEntries [(name, .int (Nat.pow 10 n : Nat))]) :=
    Context.ofData_eq_ok_iff.2 (Context.convert_cons_eq_ok_iff.2 ⟨_, _, hv, rfl, rfl⟩)
  have hlong : ¬ Context.Short (.ofEntries [(name, .int (Nat.pow 10 n : Nat))]) := by
    intro hs
    refine Value.not_short_int ?_ (hs _ List.mem_cons_self)
    rw [Nat.pow_eq, Nat.pow_eq]
    exact Nat.pow_le_pow_right (by decide) hn
  rw [putData_of_ok hd, put_of_not_short h hlong]

theorem putData_empties :
    let store : FileStore Int := ⟨"contexts", none⟩
    let kept : Context := .ofEntries [("a", .text "x")]
    let before :=
      (store.source.put "ann" kept ((Disk.blank "work" 0).makeFolder store.folder)).2
    let (result, after) := store.source.putData "ann"
      (.ofEntries [("n", .decimal (.finite false 1 5000))]) before
    result = .error .integerTooLong ∧ (store.get "ann" before).1 = .ok kept ∧
      (store.get "ann" after).1 =
        .error (.malformedJson "Expecting value: line 1 column 1 (char 0)") := by
  intro store kept before
  have hfolder (disk : Disk Int) (h : disk.locate store.folder ∈ disk.folders) :
      (disk.locate (store.path "ann")).dropLast ∈ disk.folders :=
    folder_mem (by decide) (by decide) h
  have hlives (disk : Disk Int) : ∀ lifetime ∈ store.lifetime, ¬ lifetime ≤ disk.now - disk.now :=
    by simp [store]
  obtain ⟨text, ht⟩ : ∃ text, JsonText.writeLines kept = .ok text := ⟨_, rfl⟩
  have hb : before = store.holding "ann" ((Disk.blank "work" 0).makeFolder store.folder) text :=
    congrArg Prod.snd (put_of_text (hfolder _ (Disk.locate_makeFolder _ _)) ht)
  have hp := putData_of_le (show Text.digitLimit ≤ 5000 by decide) "n"
    (hfolder before (hb ▸ Disk.locate_makeFolder _ _))
  rw [show ((5000 : Nat) : Int) = 5000 from rfl] at hp
  rw [hp]
  refine ⟨rfl, ?_, ?_⟩
  · rw [hb]
    exact (congrArg Prod.fst (get_holding (hlives _))).trans (JsonText.read_writeLines ht)
  · exact (congrArg Prod.fst (get_holding (hlives _))).trans (by rw [read_empty]; rfl)

end Get

end FileStore

/-- A put into a key-value store that fails changes nothing. -/
theorem KeyedStore.put_or_same (store : KeyedStore) (user : String)
    (data : OrderedMap String Datum) (values : KeyValues) :
    (store.source.putData user data values).1 = .ok () ∨
      (store.source.putData user data values).2 = values := by
  unfold ContextSource.putData
  rcases Context.ofData data with fault | context
  · exact .inr rfl
  · change (store.put user context values).1 = _ ∨ (store.put user context values).2 = _
    unfold KeyedStore.put
    rcases JsonText.writeLine context with fault | text
    · exact .inr rfl
    · exact .inl rfl

end Playbook
