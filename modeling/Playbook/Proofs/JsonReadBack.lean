import Playbook.ContextStore
import Playbook.JsonText.Writer
import Playbook.Proofs.NumbersReadBack
import Playbook.Proofs.Printed

/-!
# Contexts read back

A context whose values have a text is written, on one line or with an entry a line
(`exists_writeLine`, `exists_writeLines`), and what is written reads back as the context
(`read_writeLine`, `read_writeLines`). Texts read back character by character, values up to what may
stand after them, and members one after the other, where distinct names keep their places.
-/

namespace Playbook.JsonText

open Text

section Texts

variable (start : List Char)

theorem hexUnit?_hex : ∀ n < 0x20, (match hex 4 n with
    | [x, y, z, w] => hexUnit? x y z w
    | _ => none) = some n := by decide

/-- A character is read back as its code unit, if anything stands after it. -/
theorem readUnits_writeChar (c next : Char) (rest : List Char) :
    readUnits start (writeChar c ++ next :: rest) =
      (readUnits start (next :: rest)).map fun (units, rest) => (c.toNat :: units, rest) := by
  unfold writeChar
  dsimp only
  split_ifs with h1 h2 h3 h4 h5 h6 h7 h8
  · subst h1
    simp [readUnits, escaped?]
  · subst h2
    simp [readUnits, escaped?]
  · subst h3
    simp [readUnits, escaped?]
  · subst h4
    simp [readUnits, escaped?]
  · subst h5
    simp [readUnits, escaped?]
  · simp [readUnits, escaped?, h6]
  · simp [readUnits, escaped?, h7]
  · have hu := hexUnit?_hex c.toNat h8
    split at hu
    · rename_i x y z w hx
      rw [hx]
      simp [readUnits, hu]
    · cases hu
  · rw [List.singleton_append, readUnits.eq_def]
    simp [h1, h2, h8]

theorem readUnits_writeText (cs rest : List Char) :
    readUnits start (cs.flatMap writeChar ++ '\x22' :: rest) = .ok (cs.map Char.toNat, rest) := by
  induction cs with
  | nil =>
    rw [readUnits.eq_def]
    rfl
  | cons c cs ih =>
    obtain ⟨next, more, hm⟩ : ∃ next more, cs.flatMap writeChar ++ '\x22' :: rest = next :: more :=
      List.exists_cons_of_ne_nil (by simp)
    rw [List.flatMap_cons, List.append_assoc, hm, readUnits_writeChar, ← hm, ih]
    rfl

/-- No character is a half of one. -/
theorem joinUnits_map_toNat (cs : List Char) : joinUnits (cs.map Char.toNat) = cs := by
  induction cs with
  | nil => rfl
  | cons c cs ih =>
    have hv : c.toNat < 0xD800 ∨ 0xE000 ≤ c.toNat := by
      rcases c.valid with h | h
      · exact .inl h
      · exact .inr h.1
    rw [List.map_cons, joinUnits.eq_def]
    dsimp only
    rw [if_neg, if_neg, ih, Char.ofNat_toNat]
    · simp only [Bool.and_eq_true, decide_eq_true_eq]
      omega
    · simp only [Bool.and_eq_true, decide_eq_true_eq]
      omega

theorem readText_writeText (s : String) (rest : List Char) :
    readText start (s.toList.flatMap writeChar ++ '\x22' :: rest) = .ok (s, rest) := by
  rw [readText, readUnits_writeText]
  simp only [Except.map, joinUnits_map_toNat, String.ofList_toList]

end Texts

section Values

/-- A value that is no text, no object and no list is a word or a number. -/
theorem readValue_scalar {c : Char} (h : c ≠ '\x22' ∧ c ≠ '{' ∧ c ≠ '[') (fuel : Nat)
    (rest : List Char) : readValue (fuel + 1) (c :: rest) = readScalar (c :: rest) := by
  rw [readValue, if_neg h.1, if_neg h.2.1, if_neg h.2.2]

theorem readValue_of_readMagnitude {negative : Bool} {text : List Char} {r : Datum × List Char}
    (h : readMagnitude negative (withMinus negative text) text = .ok r) (fuel : Nat) :
    readValue (fuel + 1) (withMinus negative text) = .ok r := by
  have hs := readScalar_of_readMagnitude negative h
  obtain ⟨c, rest, rfl, hc⟩ := isDigit_of_readMagnitude negative _ h
  have hne : c ≠ '\x22' ∧ c ≠ '{' ∧ c ≠ '[' := by
    refine ⟨?_, ?_, ?_⟩ <;> (rintro rfl; exact absurd hc (by decide))
  rw [← hs]
  cases negative
  · exact readValue_scalar hne fuel rest
  · exact readValue_scalar (by decide) fuel (c :: rest)

variable {c : Char} (hc : Delimiter c) (rest : List Char) (fuel : Nat)
include hc

theorem readValue_integerText {i : Int} (hi : i.natAbs < Nat.pow 10 digitLimit) :
    readValue (fuel + 1) ((integerText i).toList ++ c :: rest) = .ok (.int i, c :: rest) := by
  have hr := readMagnitude_int (decide (i < 0))
    (withMinus (decide (i < 0)) (Nat.toDigits 10 i.natAbs ++ c :: rest)) hc rest hi
  have hv : (if decide (i < 0) then -(i.natAbs : Int) else i.natAbs) = i := by
    split_ifs with h <;> simp at h <;> omega
  rw [hv] at hr
  rw [toList_integerText, withMinus_append]
  exact readValue_of_readMagnitude hr fuel

theorem readValue_floatText {negative : Bool} {m : Nat} {e : Int} (h : Canonical m e) :
    readValue (fuel + 1) ((Binary64.finite negative m e h).text.toList ++ c :: rest) =
      .ok (.plain (.float (.finite negative m e h)), c :: rest) := by
  have ht : (Binary64.finite negative m e h).text.toList =
      withMinus negative
        (if m = 0 then ['0', '.', '0'] else Binary64.writeForm (Binary64.shortest m e)) :=
    String.toList_ofList
  rw [ht, withMinus_append]
  refine readValue_of_readMagnitude ?_ fuel
  split_ifs with hm
  · -- zero has the smallest exponent
    subst hm
    obtain rfl : e = -1074 := h.2.2.2.resolve_left (by decide)
    exact readMagnitude_point negative _ hc rest (.inl rfl) (by simp) (by simp [AllDigits])
  · rw [readMagnitude_writeForm negative _ hc rest (Binary64.shortest_digits_ne h hm),
      Binary64.shortest_reads negative h hm]

theorem readValue_writeValue {v : Value} {written : List Char} (h : writeValue v = .ok written) :
    readValue (fuel + 1) (written ++ c :: rest) = .ok (.plain v, c :: rest) := by
  unfold writeValue at h
  cases v with
  | null =>
    cases h
    exact readValue_scalar (by decide) fuel _
  | bool b =>
    cases h
    cases b
    · exact readValue_scalar (by decide) fuel _
    · exact readValue_scalar (by decide) fuel _
  | int i =>
    dsimp only at h
    split at h
    · rename_i hp
      obtain ⟨hi, rfl⟩ := eq_of_printInteger? hp
      cases h
      exact readValue_integerText hc rest fuel hi
    · cases h
  | float x =>
    cases h
    cases x with
    | nan => exact readValue_scalar (by decide) fuel _
    | infinite negative =>
      cases negative
      · exact readValue_scalar (by decide) fuel _
      · exact readValue_scalar (by decide) fuel _
    | finite negative m e h => exact readValue_floatText hc rest fuel h
  | text s =>
    cases h
    simp only [writeText, List.cons_append, List.append_assoc, List.nil_append]
    rw [readValue, if_pos rfl, readText_writeText]
    rfl

end Values

section Entries

theorem skipBlanks_append {blanks : List Char} (hb : ∀ c ∈ blanks, isBlank c = true)
    (text : List Char) : skipBlanks (blanks ++ text) = skipBlanks text :=
  List.dropWhile_append_of_pos hb

theorem skipBlanks_of_not {c : Char} (hc : isBlank c = false) (rest : List Char) :
    skipBlanks (c :: rest) = c :: rest :=
  List.dropWhile_cons_of_neg (by simp [hc])

/-- No value starts with a blank. -/
theorem skipBlanks_of_readValue {text : List Char} {fuel : Nat} {r : Datum × List Char}
    (h : readValue (fuel + 1) text = .ok r) : skipBlanks text = text := by
  rcases text with _ | ⟨c, rest⟩
  · rfl
  · refine skipBlanks_of_not (Bool.eq_false_iff.2 fun hb => ?_) rest
    have hc : ((c = ' ' ∨ c = '\t') ∨ c = '\n') ∨ c = '\r' := by simpa [isBlank] using hb
    rw [readValue_scalar (by rcases hc with ((rfl | rfl) | rfl) | rfl <;> decide)] at h
    rcases hc with ((rfl | rfl) | rfl) | rfl <;>
      simp [readScalar, words, afterWord?, readMagnitude, asciiDigitRun, asciiDigit?] at h

theorem writeEntries_cons {separator written : List Char} {name : String} {v : Value}
    {rest : List (String × Value)} (h : writeEntries separator ((name, v) :: rest) = .ok written) :
    ∃ value, writeValue v = .ok value ∧
      (rest = [] ∧ written = writeText name ++ ':' :: ' ' :: value ∨
        rest ≠ [] ∧ ∃ others, writeEntries separator rest = .ok others ∧
          written = writeText name ++ ':' :: ' ' :: value ++ separator ++ others) := by
  simp only [writeEntries, bind, Except.bind, pure, Except.pure] at h
  rcases hv : writeValue v with f | value
  · simp [hv] at h
  · refine ⟨value, rfl, ?_⟩
    rw [hv] at h
    rcases rest with _ | ⟨e, rest⟩
    · cases h
      exact .inl ⟨rfl, rfl⟩
    · rcases ho : writeEntries separator (e :: rest) with f | others
      · simp [ho] at h
      · simp only [List.isEmpty_cons, ho] at h
        cases h
        exact .inr ⟨List.cons_ne_nil _ _, others, rfl, rfl⟩

theorem length_le_of_writeEntries {separator written : List Char}
    {entries : List (String × Value)} (h : writeEntries separator entries = .ok written) :
    entries.length ≤ written.length := by
  induction entries generalizing written with
  | nil => exact Nat.zero_le _
  | cons e rest ih =>
    obtain ⟨value, -, ⟨rfl, rfl⟩ | ⟨-, others, ho, rfl⟩⟩ := writeEntries_cons h
    · simp [writeText]
    · have := ih ho
      simp only [List.length_cons, List.length_append, writeText]
      omega

theorem head_of_writeEntries {separator written : List Char} {entries : List (String × Value)}
    (hne : entries ≠ []) (h : writeEntries separator entries = .ok written) :
    ∃ rest, written = '\x22' :: rest := by
  obtain ⟨⟨name, v⟩, rest, rfl⟩ := List.exists_cons_of_ne_nil hne
  obtain ⟨value, -, ⟨-, rfl⟩ | ⟨-, others, -, rfl⟩⟩ := writeEntries_cons h
  · exact ⟨_, rfl⟩
  · exact ⟨_, rfl⟩

/-- One member: a brace after it is the end, a comma leads to the members that follow. -/
theorem readMembers_member {v : Value} {value : List Char} (hv : writeValue v = .ok value)
    {c : Char} (hc : Delimiter c) (name : String) (done : List (String × Datum)) (fuel : Nat)
    (after : List Char) {text : List Char}
    (ht : text = writeText name ++ ':' :: ' ' :: value ++ c :: after) :
    (∀ rest, skipBlanks (c :: after) = '}' :: rest →
      readMembers (fuel + 2) done text = .ok (OrderedMap.put name (.plain v) done, rest)) ∧
    (∀ rest, skipBlanks (c :: after) = ',' :: rest →
      readMembers (fuel + 2) done text =
        readMembers (fuel + 1) (OrderedMap.put name (.plain v) done) (skipBlanks rest)) := by
  subst ht
  have hr := readValue_writeValue hc after fuel hv
  have hs : skipBlanks (' ' :: (value ++ c :: after)) = value ++ c :: after :=
    skipBlanks_of_readValue hr
  have hcolon : skipBlanks (':' :: ' ' :: (value ++ c :: after)) =
      ':' :: ' ' :: (value ++ c :: after) := skipBlanks_of_not (by decide) _
  simp only [writeText, List.cons_append, List.append_assoc, List.nil_append]
  constructor
  · intro rest hend
    rw [readMembers]
    simp only [readText_writeText, hcolon, hs, hr, hend]
  · intro rest hcomma
    rw [readMembers]
    simp only [readText_writeText, hcolon, hs, hr, hcomma]

theorem readValue_brace (fuel : Nat) {text rest : List Char}
    (h : skipBlanks text = '\x22' :: rest) :
    readValue (fuel + 1) ('{' :: text) =
      (readMembers fuel [] ('\x22' :: rest)).map fun (fields, rest) => (.dict fields, rest) := by
  rw [readValue, if_neg (by decide), if_pos rfl, h]
  rfl

variable {blanks : List Char} (hb : ∀ c ∈ blanks, isBlank c = true)
include hb

/-- The members of an object are read back, one after the other. -/
theorem readMembers_writeEntries {c : Char} (hc : Delimiter c) {close rest : List Char}
    (hclose : skipBlanks (c :: close) = '}' :: rest) {entries : List (String × Value)}
    (hne : entries ≠ []) {written : List Char}
    (h : writeEntries (',' :: blanks) entries = .ok written) {done : List (String × Datum)}
    (hd : (done.map Prod.fst ++ entries.map Prod.fst).Nodup) {fuel : Nat}
    (hf : entries.length < fuel) :
    readMembers fuel done (written ++ c :: close) =
      .ok (done ++ entries.map fun e => (e.1, .plain e.2), rest) := by
  induction entries generalizing written done fuel with
  | nil => exact absurd rfl hne
  | cons e entries ih =>
    obtain ⟨name, v⟩ := e
    obtain ⟨fuel, rfl⟩ : ∃ n, fuel = n + 2 := ⟨fuel - 2, by simp at hf; omega⟩
    have hk : name ∉ done.map Prod.fst := fun hk =>
      (List.nodup_append.1 hd).2.2 _ hk _ List.mem_cons_self rfl
    obtain ⟨value, hv, ⟨rfl, rfl⟩ | ⟨hne, others, ho, rfl⟩⟩ := writeEntries_cons h
    · rw [(readMembers_member hv hc name done fuel close rfl).1 rest hclose,
        OrderedMap.put_of_not_mem hk]
      rfl
    · obtain ⟨t, hq⟩ := head_of_writeEntries hne ho
      have hs : skipBlanks (blanks ++ (others ++ c :: close)) = others ++ c :: close := by
        rw [skipBlanks_append hb, hq]
        exact skipBlanks_of_not (by decide) _
      have hd' : ((done ++ [(name, Datum.plain v)]).map Prod.fst ++
          entries.map Prod.fst).Nodup := by
        simpa using hd
      have hcomma : skipBlanks (',' :: (blanks ++ (others ++ c :: close))) =
          ',' :: (blanks ++ (others ++ c :: close)) := skipBlanks_of_not (by decide) _
      have ht : writeText name ++ ':' :: ' ' :: value ++ ',' :: blanks ++ others ++ c :: close =
          writeText name ++ ':' :: ' ' :: value ++ ',' :: (blanks ++ (others ++ c :: close)) := by
        simp
      have hf' : entries.length < fuel + 1 := Nat.lt_of_succ_lt_succ hf
      rw [(readMembers_member hv (.inl rfl) name done fuel _ ht).2 _ hcomma, hs,
        OrderedMap.put_of_not_mem hk, ih hne ho hd' hf']
      simp

/-- An object that is not empty is a whole text. -/
theorem readAll_object {c : Char} (hc : Delimiter c) {close : List Char}
    (hclose : skipBlanks (c :: close) = ['}']) {context : Context} (hne : context.entries ≠ [])
    {written : List Char} (h : writeEntries (',' :: blanks) context.entries = .ok written)
    {indent : List Char} (hi : ∀ c ∈ indent, isBlank c = true) :
    readAll ('{' :: (indent ++ (written ++ c :: close))) = .ok (.dict context.toData.entries) := by
  obtain ⟨t, rfl⟩ := head_of_writeEntries hne h
  have hs : skipBlanks (indent ++ '\x22' :: (t ++ c :: close)) = '\x22' :: (t ++ c :: close) := by
    rw [skipBlanks_append hi]
    exact skipBlanks_of_not (by decide) _
  have hopen : skipBlanks ('{' :: (indent ++ '\x22' :: (t ++ c :: close))) =
      '{' :: (indent ++ '\x22' :: (t ++ c :: close)) := skipBlanks_of_not (by decide) _
  have hd : (([] : List (String × Datum)).map Prod.fst ++ context.entries.map Prod.fst).Nodup :=
    context.distinct
  have hlen : context.entries.length <
      2 * ('{' :: (indent ++ '\x22' :: (t ++ c :: close))).length + 1 := by
    have := length_le_of_writeEntries h
    simp only [List.length_cons, List.length_append] at this ⊢
    omega
  have hm := readMembers_writeEntries hb hc hclose hne h hd hlen
  rw [List.cons_append] at hm ⊢
  unfold readAll
  split
  · simp_all
  · rw [hopen, readValue_brace _ hs, hm]
    rfl

end Entries

section Contexts

variable {context : Context} {text : String}

/-- The empty object is falsy, and is the empty context; any other has its members. -/
theorem ofDocument_toData (context : Context) :
    Context.ofDocument (.dict context.toData.entries) = .ok context := by
  unfold Context.ofDocument
  by_cases h : context.entries = []
  · have he : context = .empty := OrderedMap.ext h
    rw [he]
    rfl
  · have ht : (Datum.dict context.toData.entries).isTruthy = true := by
      simpa [Datum.isTruthy, Context.toData, OrderedMap.mapValues] using h
    rw [ht]
    change Context.ofData (.ofEntries context.toData.entries) = _
    rw [OrderedMap.ofEntries_entries, Context.ofData_toData]

theorem read_ofList {chars : List Char} (h : readAll chars = .ok (.dict context.toData.entries)) :
    (read (String.ofList chars) >>= Context.ofDocument) = .ok context := by
  rw [read, String.toList_ofList, h]
  exact ofDocument_toData context

theorem readAll_empty (h : context.entries = []) :
    readAll ['{', '}'] = .ok (.dict context.toData.entries) := by
  rw [show context = .empty from OrderedMap.ext h]
  rfl

/-- A context on one line reads back. -/
theorem read_writeLine (h : writeLine context = .ok text) :
    (read text >>= Context.ofDocument) = .ok context := by
  simp only [writeLine, bind, Except.bind, pure, Except.pure] at h
  rcases hw : writeEntries [',', ' '] context.entries with f | written
  · simp [hw] at h
  · rw [hw] at h
    cases h
    refine read_ofList ?_
    by_cases he : context.entries = []
    · rw [he] at hw
      cases hw
      exact readAll_empty he
    · have hb : ∀ c ∈ [' '], isBlank c = true := by simp [isBlank]
      have hi : ∀ c ∈ ([] : List Char), isBlank c = true := by simp
      exact readAll_object hb (.inr (.inr rfl)) rfl he hw hi

/-- A context with an entry a line reads back. -/
theorem read_writeLines (h : writeLines context = .ok text) :
    (read text >>= Context.ofDocument) = .ok context := by
  simp only [writeLines, bind, Except.bind, pure, Except.pure] at h
  rcases hw : writeEntries [',', '\n', ' ', ' '] context.entries with f | written
  · simp [hw] at h
  · rw [hw] at h
    by_cases he : context.entries = []
    · have ht : text = String.ofList ['{', '}'] := by simpa [he, eq_comm] using h
      rw [ht]
      exact read_ofList (readAll_empty he)
    · have hb : ∀ c ∈ ['\n', ' ', ' '], isBlank c = true := by simp [isBlank]
      simp only [List.isEmpty_iff, he, if_false] at h
      cases h
      refine read_ofList ?_
      simpa using readAll_object hb (.inr (.inl rfl)) rfl he hw hb

theorem exists_writeValue {v : Value} (h : v.Short) : ∃ written, writeValue v = .ok written := by
  unfold writeValue
  cases v with
  | int i =>
    have hp : printInteger? i = some (integerText i) := if_pos h
    dsimp only
    rw [hp]
    exact ⟨_, rfl⟩
  | _ => exact ⟨_, rfl⟩

theorem exists_writeEntries (separator : List Char) {entries : List (String × Value)}
    (h : ∀ e ∈ entries, e.2.Short) : ∃ written, writeEntries separator entries = .ok written := by
  induction entries with
  | nil => exact ⟨[], rfl⟩
  | cons e rest ih =>
    obtain ⟨value, hv⟩ := exists_writeValue (h e List.mem_cons_self)
    obtain ⟨others, ho⟩ := ih fun e he => h e (List.mem_cons_of_mem _ he)
    simp only [writeEntries, hv, ho, bind, Except.bind]
    split_ifs
    · exact ⟨_, rfl⟩
    · exact ⟨_, rfl⟩

theorem writeValue_of_not_short {v : Value} (h : ¬ v.Short) :
    writeValue v = .error .integerTooLong := by
  unfold writeValue
  cases v with
  | int i =>
    have hp : printInteger? i = none := if_neg h
    dsimp only
    rw [hp]
  | _ => exact absurd trivial h

/-- Entries one of which has no text have no text, whatever stands before it. -/
theorem writeEntries_of_not_short (separator : List Char) {entries : List (String × Value)}
    (h : ¬ ∀ e ∈ entries, e.2.Short) : writeEntries separator entries = .error .integerTooLong := by
  induction entries with
  | nil => simp at h
  | cons e rest ih =>
    rw [List.forall_mem_cons, not_and_or] at h
    by_cases he : e.2.Short
    · have hr := h.resolve_left (not_not_intro he)
      obtain ⟨written, hw⟩ := exists_writeValue he
      have hne : rest.isEmpty = false := by cases rest <;> simp at hr ⊢
      simp [writeEntries, hw, ih hr, hne, bind, Except.bind]
    · simp [writeEntries, writeValue_of_not_short he, bind, Except.bind]

theorem exists_writeLine (h : context.Short) : ∃ text, writeLine context = .ok text := by
  obtain ⟨written, hw⟩ := exists_writeEntries [',', ' '] h
  exact ⟨_, by rw [writeLine, hw]; rfl⟩

theorem exists_writeLines (h : context.Short) : ∃ text, writeLines context = .ok text := by
  obtain ⟨written, hw⟩ := exists_writeEntries [',', '\n', ' ', ' '] h
  simp only [writeLines, hw, bind, Except.bind]
  split_ifs
  · exact ⟨_, rfl⟩
  · exact ⟨_, rfl⟩

theorem writeLines_of_not_short (h : ¬ context.Short) :
    writeLines context = .error .integerTooLong := by
  simp only [writeLines, writeEntries_of_not_short _ h, bind, Except.bind]

end Contexts

end Playbook.JsonText
