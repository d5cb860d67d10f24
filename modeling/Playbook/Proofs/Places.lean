import Mathlib.Data.List.Basic
import Mathlib.Tactic.Common
import Playbook.Disk

/-!
# Places of files

The file of a plain name lies in the folder that it is joined to (`Disk.locate_join`), so that
different names have different places.
-/

namespace Playbook

namespace Text

variable {separator : Char} {left right : List Char}

theorem pieces_ne_nil (separator : Char) (text : List Char) : pieces separator text ≠ [] := by
  cases text with
  | nil => simp [pieces]
  | cons c rest =>
    simp only [pieces]
    split
    · simp
    · split <;> simp

theorem pieces_cons_of_ne {c : Char} (hc : c ≠ separator) {piece : List Char}
    {others : List (List Char)} (h : pieces separator left = piece :: others) :
    pieces separator (c :: left) = (c :: piece) :: others := by
  simp [pieces, hc, h]

theorem pieces_append (left right : List Char) :
    pieces separator (left ++ separator :: right) =
      pieces separator left ++ pieces separator right := by
  induction left with
  | nil => simp [pieces]
  | cons c left ih =>
    by_cases hc : c = separator
    · simp [pieces, hc, ih]
    · obtain ⟨piece, others, hp⟩ := List.exists_cons_of_ne_nil (pieces_ne_nil separator left)
      rw [hp, List.cons_append] at ih
      rw [List.cons_append, pieces_cons_of_ne hc hp, pieces_cons_of_ne hc ih, List.cons_append]

theorem pieces_of_not_mem (h : separator ∉ left) : pieces separator left = [left] := by
  induction left with
  | nil => rfl
  | cons c left ih =>
    rw [List.mem_cons, not_or] at h
    exact pieces_cons_of_ne (Ne.symm h.1) (ih h.2)

end Text

namespace Disk

variable {θ : Type} {folder name : String}

theorem endsWith_iff {s ending : String} :
    s.endsWith ending = true ↔ ending.toList <:+ s.toList := by
  rw [← String.endsWith_toSlice, String.Slice.endsWith_string_iff, String.copy_toSlice]

theorem follow_concat (start : Location) (parts : List String)
    (h : name ≠ "" ∧ name ≠ "." ∧ name ≠ "..") :
    follow start (parts ++ [name]) = follow start parts ++ [name] := by
  simp [follow, h]

theorem follow_concat_empty (start : Location) (parts : List String) :
    follow start (parts ++ [""]) = follow start parts := by
  simp [follow]

theorem parts_of_toList {path : String} {before : List Char}
    (h : path.toList = before ++ '/' :: name.toList) (hn : '/' ∉ name.toList) :
    parts path = (Text.pieces '/' before).map String.ofList ++ [name] := by
  rw [parts, h, Text.pieces_append, Text.pieces_of_not_mem hn, List.map_append, List.map_singleton,
    String.ofList_toList]

variable (hf : folder ≠ "") (hn : '/' ∉ name.toList)
include hf hn

/-- A separator at the end of the folder is not repeated. -/
theorem toList_join : ∃ before, (join folder name).toList = before ++ '/' :: name.toList ∧
    (folder.toList = before ∧ before ≠ [] ∨ folder.toList = before ++ ['/']) := by
  have hs : ¬name.startsWith "/" = true := fun h =>
    hn ((String.startsWith_string_iff.1 h).subset (by simp))
  unfold join
  rw [if_neg (by simp [hs, hf])]
  split
  · rename_i he
    obtain ⟨before, hb⟩ := endsWith_iff.1 he
    refine ⟨before, ?_, .inr hb.symm⟩
    rw [String.toList_append, ← hb]
    simp
  · refine ⟨folder.toList, ?_, .inl ⟨rfl, by simpa using hf⟩⟩
    change (folder ++ "/" ++ name).toList = _
    simp

/-- A plain name lies in the folder that it is joined to. -/
theorem locate_join (hname : name ≠ "" ∧ name ≠ "." ∧ name ≠ "..") (disk : Disk θ) :
    disk.locate (join folder name) = disk.locate folder ++ [name] := by
  obtain ⟨before, hj, hfolder⟩ := toList_join hf hn
  have hp := parts_of_toList hj hn
  have hne : (Text.pieces '/' before).map String.ofList ≠ [] := by
    simpa using Text.pieces_ne_nil '/' before
  have hparts : parts folder = (Text.pieces '/' before).map String.ofList ∨
      parts folder = (Text.pieces '/' before).map String.ofList ++ [""] := by
    rcases hfolder with ⟨h, -⟩ | h
    · exact .inl (by rw [parts, h])
    · exact .inr (parts_of_toList h (by simp))
  have hfollow (start : Location) :
      follow start (parts (join folder name)) = follow start (parts folder) ++ [name] := by
    rw [hp, follow_concat start _ hname]
    rcases hparts with h | h
    · rw [h]
    · rw [h, follow_concat_empty]
  have hhead : (parts (join folder name)).head? = (parts folder).head? := by
    rw [hp, List.head?_append_of_ne_nil _ hne]
    rcases hparts with h | h
    · rw [h]
    · rw [h, List.head?_append_of_ne_nil _ hne]
  have hroot : (join folder name).startsWith "/" = folder.startsWith "/" := by
    rw [Bool.eq_iff_iff, String.startsWith_string_iff, String.startsWith_string_iff, hj]
    rcases hfolder with ⟨h, hb⟩ | h
    · obtain ⟨c, before, rfl⟩ := List.exists_cons_of_ne_nil hb
      simp [h]
    · cases before <;> simp [h]
  unfold locate
  rw [hroot, hhead, hfollow, hfollow]
  split <;> rfl

omit hf hn

theorem locate_makeFolder (disk : Disk θ) (path : String) :
    (disk.makeFolder path).locate path ∈ (disk.makeFolder path).folders := by
  have hw : disk.locate path ∈ (List.range ((disk.locate path).length + 1)).map fun n =>
      (disk.locate path).take n :=
    List.mem_map.2 ⟨(disk.locate path).length, by simp, List.take_length⟩
  change disk.locate path ∈ disk.folders ++ _
  by_cases h : disk.locate path ∈ disk.folders
  · exact List.mem_append_left _ h
  · exact List.mem_append_right _ (List.mem_filter.2 ⟨hw, by simpa using h⟩)

theorem write_of_mem {disk : Disk θ} {path : String}
    (h : (disk.locate path).dropLast ∈ disk.folders) (text : String) :
    disk.write path text =
      .ok { disk with files := disk.files.insert (disk.locate path) ⟨text, disk.now⟩ } := by
  rw [write, if_pos (by simpa using h)]

end Disk

end Playbook
