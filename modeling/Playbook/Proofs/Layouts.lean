import Mathlib.Data.List.Basic
import Mathlib.Data.List.TakeWhile
import Mathlib.Tactic.Common
import Playbook.Proofs.Printed
import Playbook.Template

/-!
# How a template is laid out

A template is cut into literals with variables between them (`Template.Layout`), where each variable
is the leftmost one that begins in what is left of the text. There is one way to cut a text like
that, and the pieces that a scan finds are those of this layout (`Layout.leftmost_iff`,
`Layout.scan_text`). So a rendering can be told from the layout: every variable gives way to the
text of its value, and the first one without a value is what fails it (`render_layout`).
-/

namespace Playbook

namespace Template

def Opens (text : List Char) : Prop :=
  ∃ name rest, name ≠ [] ∧ '}' ∉ name ∧ text = '{' :: (name ++ '}' :: rest)

/-- No variable begins inside a literal that a text follows. -/
def Plain (literal rest : List Char) : Prop :=
  ∀ before after, literal = before ++ after → after ≠ [] → ¬Opens (after ++ rest)

/-- A literal at the end, or one before a variable with the layout of what comes after that. -/
inductive Layout where
  | last (literal : List Char)
  | before (literal name : List Char) (rest : Layout)
deriving DecidableEq

namespace Layout

def text : Layout → List Char
  | last literal => literal
  | before literal name rest => literal ++ '{' :: (name ++ '}' :: rest.text)

/-- The names between the braces, in order. -/
def names : Layout → List String
  | last _ => []
  | before _ name rest => String.ofList name :: rest.names

/-- The text with something else in the place of the variables. -/
def fill (textOf : String → String) : Layout → List Char
  | last literal => literal
  | before literal name rest =>
    literal ++ ((textOf (String.ofList name)).toList ++ rest.fill textOf)

/-- Each variable is the leftmost one that begins where the one before it is over. -/
def Leftmost : Layout → Prop
  | last literal => Plain literal []
  | before literal name rest =>
    name ≠ [] ∧ '}' ∉ name ∧ Plain literal ('{' :: (name ++ '}' :: rest.text)) ∧ rest.Leftmost

def pieces : Layout → List Piece
  | last literal => literal.map .char
  | before literal name rest => literal.map .char ++ .variable name :: rest.pieces

def cons (c : Char) : Layout → Layout
  | last literal => last (c :: literal)
  | before literal name rest => before (c :: literal) name rest

def ofPieces : List Piece → Layout
  | [] => last []
  | .char c :: rest => (ofPieces rest).cons c
  | .variable name :: rest => before [] name (ofPieces rest)

end Layout

section Scan

variable {c : Char} {name rest text later literal : List Char}

theorem plain_nil : Plain [] rest := fun _ _ h hne =>
  absurd (List.append_eq_nil_iff.1 h.symm).2 hne

theorem plain_cons_iff : Plain (c :: literal) rest ↔
    ¬Opens (c :: (literal ++ rest)) ∧ Plain literal rest := by
  constructor
  · intro h
    refine ⟨h [] (c :: literal) rfl (List.cons_ne_nil _ _), fun before after he hne => ?_⟩
    exact h (c :: before) after (by rw [he, List.cons_append]) hne
  · rintro ⟨hc, h⟩ before after he hne
    cases before with
    | nil =>
      obtain rfl : c :: literal = after := he
      exact hc
    | cons d before => exact h before after (List.cons.inj he).2 hne

theorem scan_skip (skip : Nat) (text : List Char) : scan skip text = scan 0 (text.drop skip) := by
  induction text generalizing skip with
  | nil => simp [scan]
  | cons c rest ih =>
    cases skip with
    | zero => rfl
    | succ skip =>
      rw [scan, List.drop_succ_cons]
      exact ih skip

theorem nameBefore_variable (hn : name ≠ []) (hc : '}' ∉ name) :
    nameBefore (name ++ '}' :: rest) = some name := by
  have hp : ∀ d ∈ name, decide (d ≠ '}') = true := fun d hd => by
    rw [decide_eq_true_eq]
    rintro rfl
    exact hc hd
  have ht : (name ++ '}' :: rest).takeWhile (· ≠ '}') = name := by
    rw [List.takeWhile_append_of_pos hp, List.takeWhile_cons_of_neg (by simp), List.append_nil]
  simp only [nameBefore, ht]
  simp [hn]

theorem nameBefore_eq_none (h : ¬Opens ('{' :: text)) : nameBefore text = none := by
  by_cases hc : '}' ∈ text
  · obtain ⟨name, rest, rfl, hname⟩ := List.eq_append_cons_of_mem hc
    obtain rfl : name = [] := by
      by_contra hn
      exact h ⟨name, rest, hn, hname, rfl⟩
    simp [nameBefore]
  · have ht : text.takeWhile (· ≠ '}') = text := by
      refine List.takeWhile_eq_self_iff.2 fun d hd => ?_
      rw [decide_eq_true_eq]
      rintro rfl
      exact hc hd
    simp only [nameBefore, ht]
    simp

theorem scan_variable (hn : name ≠ []) (hc : '}' ∉ name) :
    scan 0 ('{' :: (name ++ '}' :: rest)) = .variable name :: scan 0 rest := by
  have hd : (name ++ '}' :: rest).drop (name.length + 1) = rest := by
    rw [List.append_cons]
    exact List.drop_left' (by simp)
  simp only [scan, nameBefore_variable hn hc, if_true]
  rw [scan_skip, hd]

theorem scan_char (h : ¬Opens (c :: rest)) : scan 0 (c :: rest) = .char c :: scan 0 rest := by
  by_cases hc : c = '{'
  · obtain rfl := hc
    simp only [scan, nameBefore_eq_none h, if_true]
  · simp only [scan, if_neg hc]

/-- A text is empty, or it begins with a variable or with a character at which none begins. -/
@[elab_as_elim]
theorem opens_induction {motive : List Char → Prop} (nil : motive [])
    (opening : ∀ name rest, name ≠ [] → '}' ∉ name → motive rest →
      motive ('{' :: (name ++ '}' :: rest)))
    (char : ∀ c rest, ¬Opens (c :: rest) → motive rest → motive (c :: rest)) :
    ∀ text, motive text
  | [] => nil
  | c :: rest => by
    by_cases h : Opens (c :: rest)
    · obtain ⟨name, rest', hn, hc, he⟩ := h
      have hl : rest'.length < (c :: rest).length := by
        rw [he, List.length_cons, List.length_append, List.length_cons]
        omega
      rw [he]
      exact opening name rest' hn hc (opens_induction nil opening char rest')
    · exact char c rest h (opens_induction nil opening char rest)
  termination_by text => text.length
  decreasing_by
    · exact hl
    · exact Nat.lt_succ_self _

/-- Where every opening brace has a closing one after it, nothing is changed by what follows. -/
theorem scan_append (h : ∀ before after, text = before ++ '{' :: after → '}' ∈ after) :
    scan 0 (text ++ later) = scan 0 text ++ scan 0 later := by
  induction text using opens_induction with
  | nil => rfl
  | opening name rest hn hc ih =>
    have ih := ih fun before after he =>
      h ('{' :: (name ++ '}' :: before)) after (by simp [he])
    rw [List.cons_append, List.append_assoc, List.cons_append, scan_variable hn hc,
      scan_variable hn hc, ih, List.cons_append]
  | char c rest ho ih =>
    have ih := ih fun before after he => h (c :: before) after (by simp [he])
    have ho' : ¬Opens (c :: (rest ++ later)) := by
      rintro ⟨name, tail, hn, hc, he⟩
      obtain ⟨rfl, ht⟩ := List.cons.inj he
      -- A closing brace stands in the template itself, so the variable is over before its end.
      have hm : '}' ∈ rest := h [] rest rfl
      rcases List.append_eq_append_iff.1 ht with ⟨more, rfl, -⟩ | ⟨more, rfl, hl⟩
      · exact hc (List.mem_append_left _ hm)
      · cases more with
        | nil => exact hc (by simpa using hm)
        | cons d more =>
          obtain rfl := (List.cons.inj hl).1
          exact ho ⟨name, more, hn, hc, rfl⟩
    rw [List.cons_append, scan_char ho', scan_char ho, ih, List.cons_append]

theorem mem_of_afterLast (h : '{' ∉ Text.afterLast '}' text) (before after : List Char)
    (he : text = before ++ '{' :: after) : '}' ∈ after := by
  by_contra hc
  have hp : ∀ d ∈ after.reverse, decide (d ≠ '}') = true := fun d hd => by
    rw [decide_eq_true_eq]
    rintro rfl
    exact hc (List.mem_reverse.1 hd)
  refine h ?_
  rw [Text.afterLast, he, List.reverse_append, List.reverse_cons, List.append_assoc,
    List.takeWhile_append_of_pos hp]
  simp

end Scan

namespace Layout

variable {c : Char} {text : List Char} {layout : Layout}

@[simp]
theorem text_cons : (layout.cons c).text = c :: layout.text := by
  cases layout <;> rfl

theorem leftmost_cons_iff :
    (layout.cons c).Leftmost ↔ ¬Opens (c :: layout.text) ∧ layout.Leftmost := by
  cases layout with
  | last literal =>
    rw [cons, Leftmost, plain_cons_iff, List.append_nil]
    rfl
  | before literal name rest =>
    simp only [cons, Leftmost, plain_cons_iff, Layout.text]
    tauto

theorem ofPieces_scan (text : List Char) :
    (ofPieces (scan 0 text)).text = text ∧ (ofPieces (scan 0 text)).Leftmost := by
  induction text using opens_induction with
  | nil => exact ⟨rfl, plain_nil⟩
  | opening name rest hn hc ih =>
    rw [scan_variable hn hc, ofPieces]
    exact ⟨by rw [Layout.text, ih.1, List.nil_append], hn, hc, plain_nil, ih.2⟩
  | char c rest ho ih =>
    rw [scan_char ho, ofPieces, text_cons, leftmost_cons_iff, ih.1]
    exact ⟨rfl, ho, ih.2⟩

theorem ofPieces_pieces (layout : Layout) : ofPieces layout.pieces = layout := by
  induction layout with
  | last literal =>
    induction literal with
    | nil => rfl
    | cons c literal ih =>
      have hp : (last (c :: literal)).pieces = .char c :: (last literal).pieces := rfl
      rw [hp, ofPieces, ih, cons]
  | before literal name rest ih =>
    induction literal with
    | nil =>
      have hp : (before [] name rest).pieces = .variable name :: rest.pieces := rfl
      rw [hp, ofPieces, ih]
    | cons c literal ihl =>
      have hp : (before (c :: literal) name rest).pieces =
        .char c :: (before literal name rest).pieces := rfl
      rw [hp, ofPieces, ihl, cons]

theorem scan_plain {literal rest : List Char} (h : Plain literal rest) :
    scan 0 (literal ++ rest) = literal.map .char ++ scan 0 rest := by
  induction literal with
  | nil => rfl
  | cons c literal ih =>
    rw [plain_cons_iff] at h
    rw [List.cons_append, scan_char h.1, ih h.2, List.map_cons, List.cons_append]

theorem scan_text (h : layout.Leftmost) : scan 0 layout.text = layout.pieces := by
  induction layout with
  | last literal =>
    have hs := scan_plain h
    rwa [List.append_nil, scan, List.append_nil] at hs
  | before literal name rest ih =>
    obtain ⟨hn, hc, hp, hr⟩ := h
    rw [Layout.text, scan_plain hp, scan_variable hn hc, ih hr, pieces]

/-- A text is cut in one way. -/
theorem leftmost_iff : layout.text = text ∧ layout.Leftmost ↔ layout = ofPieces (scan 0 text) := by
  constructor
  · rintro ⟨rfl, h⟩
    rw [scan_text h, ofPieces_pieces]
  · rintro rfl
    exact ofPieces_scan text

end Layout

section Render

variable {context context' : Context} {layout : Layout} {name : List Char} {rest later : List Piece}

theorem renderPieces_chars (literal : List Char) :
    renderPieces context (literal.map .char ++ rest) =
      (renderPieces context rest).map (literal ++ ·) := by
  induction literal with
  | nil =>
    rw [List.map_nil, List.nil_append]
    cases renderPieces context rest <;> rfl
  | cons c literal ih =>
    rw [List.map_cons, List.cons_append, renderPieces, ih]
    cases renderPieces context rest <;> rfl

theorem renderPieces_variable {s : String} (hv : context.valueOf (String.ofList name) ≠ .null)
    (hs : (context.valueOf (String.ofList name)).format = .ok s) :
    renderPieces context (.variable name :: rest) =
      (renderPieces context rest).map (s.toList ++ ·) := by
  have hp : renderPiece context (.variable name) = .ok s.toList := by
    rw [renderPiece]
    split
    · rename_i h
      exact absurd h hv
    · rw [hs]
      rfl
  rw [renderPieces, hp]
  cases renderPieces context rest <;> rfl

theorem renderPieces_missing (hv : context.valueOf (String.ofList name) = .null) :
    renderPieces context (.variable name :: rest) =
      .error (.missingVariable (String.ofList name)) := by
  simp only [renderPieces, renderPiece, hv]
  rfl

theorem renderPieces_append {s t : List Char} (hs : renderPieces context rest = .ok s)
    (ht : renderPieces context later = .ok t) :
    renderPieces context (rest ++ later) = .ok (s ++ t) := by
  induction rest generalizing s with
  | nil =>
    cases hs
    exact ht
  | cons piece rest ih =>
    simp only [renderPieces, List.cons_append, bind, Except.bind, pure, Except.pure] at hs ⊢
    rcases hp : renderPiece context piece with f | first <;> simp only [hp] at hs ⊢
    · cases hs
    rcases hr : renderPieces context rest with f | others <;> simp only [hr] at hs ⊢
    · cases hs
    · cases hs
      simp only [ih hr, List.append_assoc]

theorem renderPieces_congr {pieces : List Piece} (h : ∀ name, .variable name ∈ pieces →
    context.valueOf (String.ofList name) = context'.valueOf (String.ofList name)) :
    renderPieces context pieces = renderPieces context' pieces := by
  induction pieces with
  | nil => rfl
  | cons piece rest ih =>
    have hp : renderPiece context piece = renderPiece context' piece := by
      rcases piece with c | name
      · rfl
      · rw [renderPiece, renderPiece, h name List.mem_cons_self]
    rw [renderPieces, renderPieces, hp, ih fun name hm => h name (List.mem_cons_of_mem _ hm)]

namespace Layout

theorem renderPieces_fill {textOf : String → String}
    (h : ∀ n ∈ layout.names, context.valueOf n ≠ .null ∧
      (context.valueOf n).format = .ok (textOf n)) :
    renderPieces context layout.pieces = .ok (layout.fill textOf) := by
  induction layout with
  | last literal =>
    have hc : renderPieces context (literal.map .char ++ []) = _ := renderPieces_chars literal
    rw [List.append_nil] at hc
    rw [pieces, hc, fill, renderPieces, Except.map, List.append_nil]
  | before literal name rest ih =>
    obtain ⟨hn, hr⟩ := List.forall_mem_cons.1 h
    rw [pieces, renderPieces_chars, renderPieces_variable hn.1 hn.2, ih hr, fill]
    rfl

theorem renderPieces_missing (hs : context.Short) {n : String}
    (h : layout.names.find? (fun n => context.valueOf n = .null) = some n) :
    renderPieces context layout.pieces = .error (.missingVariable n) := by
  induction layout with
  | last literal => cases h
  | before literal name rest ih =>
    rw [pieces, renderPieces_chars]
    by_cases hv : context.valueOf (String.ofList name) = .null
    · rw [names, List.find?_cons_of_pos (by simpa using hv)] at h
      rw [Template.renderPieces_missing hv, Option.some.inj h]
      rfl
    · rw [names, List.find?_cons_of_neg (by simpa using hv)] at h
      obtain ⟨s, hf⟩ := (Context.Short.valueOf hs (String.ofList name)).exists_format
      rw [renderPieces_variable hv hf, ih h]
      rfl

theorem filterMap_pieces (layout : Layout) : (layout.pieces.filterMap fun
    | .char _ => none
    | .variable name => some (String.ofList name)) = layout.names := by
  induction layout with
  | last literal => simp [pieces, names]
  | before literal name rest ih => simp [pieces, names, ih]

end Layout

theorem names_of_pieces {template : String} (h : pieces template = layout.pieces) :
    names template = layout.names := by
  rw [names, h]
  exact layout.filterMap_pieces

theorem mem_names_iff {template : String} {name : List Char} :
    String.ofList name ∈ names template ↔ .variable name ∈ pieces template := by
  unfold names
  rw [List.mem_filterMap]
  constructor
  · rintro ⟨piece, hm, he⟩
    rcases piece with c | other
    · cases he
    · rwa [← String.ofList_injective (Option.some.inj he)]
  · exact fun hm => ⟨_, hm, rfl⟩

theorem render_eq_ok_iff {template s : String} :
    render template context = .ok s ↔ renderPieces context (pieces template) = .ok s.toList := by
  unfold render
  rcases renderPieces context (pieces template) with f | text
  · simp [Except.map]
  · rw [Except.map, Except.ok.injEq, Except.ok.injEq]
    constructor
    · rintro rfl
      exact String.toList_ofList.symm
    · rintro rfl
      exact String.ofList_toList

/-- Where all variables have values, each gives way to the text of its value; else the rendering
fails with the first one that has none. -/
theorem render_of_pieces {template : String} (hs : context.Short)
    (h : pieces template = layout.pieces) :
    ((∀ n ∈ names template, context.valueOf n ≠ .null) →
      ∃ textOf : String → String,
        (∀ n ∈ names template, (context.valueOf n).format = .ok (textOf n)) ∧
        render template context = .ok (.ofList (layout.fill textOf))) ∧
    ∀ n, (names template).find? (fun n => context.valueOf n = .null) = some n →
      render template context = .error (.missingVariable n) := by
  rw [names_of_pieces h, render, h]
  refine ⟨fun hv => ?_, fun n hn => ?_⟩
  · choose textOf ht using fun n => (Context.Short.valueOf hs n).exists_format
    refine ⟨textOf, fun n _ => ht n, ?_⟩
    rw [layout.renderPieces_fill fun n hn => ⟨hv n hn, ht n⟩]
    rfl
  · rw [layout.renderPieces_missing hs hn]
    rfl

/-- A template is cut at its variables in one way, from the left, and renders to its literals with
the texts of the values between them, or fails with the first variable that has no value. What is
put in is not looked at again, only the variables matter of a context, and a template without an
open brace at its end is rendered apart from what follows it. -/
theorem render_layout (template : String) : ∃ layout : Layout,
    (∀ other : Layout, other.text = template.toList ∧ other.Leftmost ↔ other = layout) ∧
    names template = layout.names ∧
    (∀ context : Context, context.Short →
      ((∃ s, render template context = .ok s) ↔
        ∀ n ∈ names template, context.valueOf n ≠ .null) ∧
      ((∀ n ∈ names template, context.valueOf n ≠ .null) →
        ∃ textOf : String → String,
          (∀ n ∈ names template, (context.valueOf n).format = .ok (textOf n)) ∧
          render template context = .ok (.ofList (layout.fill textOf))) ∧
      ∀ n, (names template).find? (fun n => context.valueOf n = .null) = some n →
        render template context = .error (.missingVariable n)) ∧
    (∀ context context' : Context,
      (∀ n ∈ names template, context.valueOf n = context'.valueOf n) →
        render template context = render template context') ∧
    ∀ (later : String) (context : Context) (s s' : String),
      '{' ∉ Text.afterLast '}' template.toList → render template context = .ok s →
      render later context = .ok s' → render (template ++ later) context = .ok (s ++ s') := by
  have hl := Layout.leftmost_iff.2 (rfl : Layout.ofPieces (pieces template) = _)
  have hp : pieces template = (Layout.ofPieces (pieces template)).pieces := by
    rw [← Layout.scan_text hl.2, hl.1, pieces]
  refine ⟨.ofPieces (pieces template), fun _ => Layout.leftmost_iff, names_of_pieces hp,
    fun context hs => ?_, fun context context' h => ?_, fun later context s s' h hs hs' => ?_⟩
  · obtain ⟨hok, hmissing⟩ := render_of_pieces hs hp
    refine ⟨⟨fun ⟨s, hr⟩ => ?_, fun hv => ?_⟩, hok, hmissing⟩
    · rcases hf : (names template).find? (fun n => context.valueOf n = .null) with _ | n
      · simpa using hf
      · rw [hmissing n hf] at hr
        cases hr
    · obtain ⟨textOf, -, hr⟩ := hok hv
      exact ⟨_, hr⟩
  · rw [render, render, renderPieces_congr fun name hm => h _ (mem_names_iff.2 hm)]
  · have ha : pieces (template ++ later) = pieces template ++ pieces later := by
      rw [pieces, String.toList_append, scan_append (mem_of_afterLast h), pieces, pieces]
    rw [render_eq_ok_iff] at hs hs' ⊢
    rw [ha, renderPieces_append hs hs', String.toList_append]

/-- Braces that begin no variable, a name with a brace in it, and a value that looks like a
variable; another context has no value for the second variable. -/
theorem render_layout_refund :
    let template := "\x7b\x7d for \x7bname\x7d: \x7b\x7bvip\x7d"
    let context : Context := .ofEntries [("name", .text "\x7bvip\x7d"), ("\x7bvip", .bool true)]
    let bare : Context := .ofEntries [("name", .text "\x7bvip\x7d"), ("\x7bvip", .null)]
    context.Short ∧ (∀ n ∈ names template, context.valueOf n ≠ .null) ∧
      render template context = .ok "\x7b\x7d for \x7bvip\x7d: true" ∧
      '{' ∉ Text.afterLast '}' template.toList ∧
      render (template ++ "!") context = .ok "\x7b\x7d for \x7bvip\x7d: true!" ∧
      bare.Short ∧ (names template).find? (fun n => bare.valueOf n = .null) = some "\x7bvip" ∧
      render template bare = .error (.missingVariable "\x7bvip") := by
  intro template context bare
  obtain ⟨layout, hu, -, hr, -, ha⟩ := render_layout template
  have hs : context.Short :=
    List.forall_mem_cons.2 ⟨trivial, List.forall_mem_cons.2 ⟨trivial, by simp⟩⟩
  have hb : bare.Short :=
    List.forall_mem_cons.2 ⟨trivial, List.forall_mem_cons.2 ⟨trivial, by simp⟩⟩
  have hv : ∀ n ∈ names template, context.valueOf n ≠ .null := by decide
  have hl : layout = .before "\x7b\x7d for ".toList "name".toList
      (.before ": ".toList "\x7bvip".toList (.last [])) :=
    ((hu _).1 (Layout.leftmost_iff.2 (by decide))).symm
  have hok : render template context = .ok "\x7b\x7d for \x7bvip\x7d: true" := by
    obtain ⟨textOf, ht, he⟩ := (hr context hs).2.1 hv
    have hname : textOf "name" = "\x7bvip\x7d" := (Except.ok.inj (ht "name" (by decide))).symm
    have hvip : textOf "\x7bvip" = "true" := (Except.ok.inj (ht "\x7bvip" (by decide))).symm
    rw [he, hl]
    simp only [Layout.fill, String.ofList_toList, hname, hvip]
    rfl
  have hf : (names template).find? (fun n => bare.valueOf n = .null) = some "\x7bvip" := by decide
  have hc : '{' ∉ Text.afterLast '}' template.toList := by decide
  exact ⟨hs, hv, hok, hc, ha "!" context _ "!" hc hok rfl, hb, hf, (hr bare hb).2.2 _ hf⟩

end Render

end Template

end Playbook
