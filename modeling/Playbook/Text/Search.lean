/-!
# Finding, replacing and cutting text

Search runs from the left and finds matches that do not overlap. Everything works on lists of
characters by structural recursion; the `String` forms at the end only convert.
-/

namespace Playbook.Text

/-- Whether `needle` stands somewhere in the text. -/
def occurs (needle : List Char) : List Char → Bool
  | [] => needle.isEmpty
  | c :: rest => needle.isPrefixOf (c :: rest) || occurs needle rest

/-- Replaces matches of a non-empty needle, after dropping the first `skip` characters, which are
what is left of the match just replaced. -/
def replaceFrom (needle new : List Char) : Nat → List Char → List Char
  | _, [] => []
  | skip + 1, _ :: rest => replaceFrom needle new skip rest
  | 0, c :: rest =>
    if needle.isPrefixOf (c :: rest) then
      new ++ replaceFrom needle new (needle.length - 1) rest
    else
      c :: replaceFrom needle new 0 rest

/-- Replaces every match of a non-empty needle; inserted text is not searched again. -/
def replaceAll (needle new text : List Char) : List Char :=
  replaceFrom needle new 0 text

/-- The text before and after the first match of a separator. -/
def splitFirst (separator : List Char) : List Char → Option (List Char × List Char)
  | [] => none
  | c :: rest =>
    if separator.isPrefixOf (c :: rest) then
      some ([], (c :: rest).drop separator.length)
    else
      (splitFirst separator rest).map fun (before, after) => (c :: before, after)

/-- What follows the last `separator`; the whole text when there is none. -/
def afterLast (separator : Char) (text : List Char) : List Char :=
  (text.reverse.takeWhile (· ≠ separator)).reverse

/-- The text up to and with the last character that satisfies `p`; empty when none does. -/
def throughLast (p : Char → Bool) (text : List Char) : List Char :=
  (text.reverse.dropWhile (! p ·)).reverse

/-- The pieces of a text between the separators; one more piece than separators. -/
def pieces (separator : Char) : List Char → List (List Char)
  | [] => [[]]
  | c :: rest =>
    if c = separator then [] :: pieces separator rest
    else
      match pieces separator rest with
      | [] => [[c]]
      | piece :: others => (c :: piece) :: others

/-- Every match of `needle` in `text` replaced by `new`, left to right. -/
def replace (needle new text : String) : String :=
  String.ofList (replaceAll needle.toList new.toList text.toList)

/-- Whether `needle` stands somewhere in `text`. -/
def has (needle text : String) : Bool :=
  occurs needle.toList text.toList

theorem splitFirst_isSome (separator text : List Char) (h : separator ≠ []) :
    (splitFirst separator text).isSome = occurs separator text := by
  induction text with
  | nil => cases separator <;> simp_all [splitFirst, occurs]
  | cons c rest ih =>
    simp only [splitFirst, occurs]
    split <;> simp_all

theorem append_of_splitFirst {separator text before after : List Char}
    (h : splitFirst separator text = some (before, after)) :
    text = before ++ separator ++ after := by
  induction text generalizing before with
  | nil => simp [splitFirst] at h
  | cons c rest ih =>
    simp only [splitFirst] at h
    split at h
    case isTrue hp =>
      obtain ⟨t, ht⟩ := List.isPrefixOf_iff_prefix.1 hp
      simp only [Option.some.injEq, Prod.mk.injEq] at h
      obtain ⟨rfl, rfl⟩ := h
      rw [← ht]
      simp
    case isFalse =>
      obtain ⟨⟨b, a⟩, hb, he⟩ := Option.map_eq_some_iff.1 h
      simp only [Prod.mk.injEq] at he
      obtain ⟨rfl, rfl⟩ := he
      simp [ih hb]

end Playbook.Text
