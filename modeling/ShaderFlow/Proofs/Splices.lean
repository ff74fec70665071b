/-
  ShaderFlow.Proofs.Splices — code at the markers of a template.

  Texts go in the place of the first line that is a marker but for white space; the lines around
  it stay.  A stage takes two such steps, and the second one reads the text that the first one
  left.  So it comes upon the lines of the declarations, too: where the marker of the body stands
  among them before it stands in the template, the body goes there.

  Main definitions:
    * `Template.replace?`  — a text with texts in the place of a line;
    * `Template.fill`      — a template that is read only once, for both markers;
    * `Template.BodyFirst` — a template with the marker of the body in front.

  Main statements:
    * `Template.replaces_one_line` — one step, on any text and for any marker;
    * `Progress.renders_iff`       — when the two steps come to the same as reading once;
    * `Material.marked_misplaced`  — a function with the marker of the body in it.
-/

import ShaderFlow.Proofs.Templates

namespace ShaderFlow

namespace Template

variable {source template name : String} {marker : Marker} {texts declarations : List String}
  {line other : String} {ls before after : List String} {stage : Stage}

/-! ## §1. One step -/

/-- A text with texts in the place of its first line that is `marker` but for white space. -/
def replace? (marker : String) (texts : List String) (source : String) : Option String :=
  (splice marker texts (Text.lines source)).map Text.unlines

theorem insert_eq (stage : Stage) (marker : Marker) (texts : List String) (source : String) :
    insert stage marker texts source =
      match replace? marker.text texts source with
      | some text => .ok text
      | none => .error (.template stage marker) := by
  rw [insert, replace?]
  cases splice marker.text texts (Text.lines source) <;> rfl

theorem splice_eq_none (texts : List String) (h : ∀ line ∈ ls, Text.trim line ≠ name) :
    splice name texts ls = none := by
  induction ls with
  | nil => rfl
  | cons line ls ih =>
    have hline := h line List.mem_cons_self
    rw [splice, if_neg (by simpa using hline), ih fun l hl => h l (List.mem_cons_of_mem _ hl)]
    rfl

/-- **Texts go in the place of exactly one line**, whatever the text and the marker.  There may be
    no line that is the marker but for white space; then the step fails.  Otherwise the lines in
    front of the first one stay, the lines of all texts follow in order, each that is not empty
    behind the white space in front of the marker, and the lines behind it stay. -/
theorem replaces_one_line (marker : String) (texts : List String) (source : String) :
    (∃ ls, Text.HasLines source ls ∧
      ((∀ line ∈ ls, Text.trim line ≠ marker) ∧ replace? marker texts source = none ∨
        ∃ before line after back, ls = before ++ line :: after ∧
          (∀ other ∈ before, Text.trim other ≠ marker) ∧ Text.trim line = marker ∧
          line = Text.indentOf line ++ marker ++ back ∧
          (∀ c ∈ (Text.indentOf line).toList ++ back.toList, Text.isBlank c = true) ∧
          replace? marker texts source =
            some (String.intercalate "\n" (before ++
              (texts.flatMap Text.lines).map
                (fun text => if text = "" then "" else Text.indentOf line ++ text) ++
              after) ++ "\n"))) ∧
    ∀ stage (m : Marker), insert stage m texts source =
      match replace? m.text texts source with
      | some text => .ok text
      | none => .error (.template stage m) := by
  refine ⟨⟨Text.lines source, Text.hasLines_lines source, ?_⟩, fun stage m => insert_eq stage m _ _⟩
  by_cases hmarker : ∃ line ∈ Text.lines source, Text.trim line = marker
  · right
    obtain ⟨before, line, after, hlines, hbefore, hline⟩ := exists_first hmarker
    obtain ⟨back, hback, hsplit⟩ := Text.eq_around_trim line
    rw [hline] at hsplit
    refine ⟨before, line, after, back, hlines, hbefore, hline, hsplit, ?_, ?_⟩
    · intro c hc
      rcases List.mem_append.mp hc with hc | hc
      · exact Text.isBlank_indentOf hc
      · exact hback c hc
    · have hindent : indentLine (Text.indentOf line) =
          fun text => if text = "" then "" else Text.indentOf line ++ text := by
        funext text
        simp [indentLine, String.isEmpty_iff]
      rw [replace?, hlines, splice_of_first texts hbefore hline, inserted, hindent]
      rfl
  · left
    have hnone : ∀ line ∈ Text.lines source, Text.trim line ≠ marker :=
      fun line hline heq => hmarker ⟨line, hline, heq⟩
    refine ⟨hnone, ?_⟩
    rw [replace?, splice_eq_none texts hnone]
    rfl

/-! ## §2. Both markers at once -/

/-- The lines of a template that is read once, with texts for markers: the first line for each of
    them gives way to its texts, and every other line stays. -/
def fill : List (Marker × List String) → List String → List String
  | _, [] => []
  | wanted, line :: rest =>
    match wanted.find? fun want => Text.trim line == want.1.text with
    | some want => inserted line want.2 ++ fill (wanted.filter (·.1 != want.1)) rest
    | none => line :: fill wanted rest

/-- A template with the marker of the body in front of that of the declarations. -/
def BodyFirst (source : String) : Prop :=
  ∃ before line after, Text.lines source = before ++ line :: after ∧
    Text.trim line = Marker.body.text ∧ ∀ other ∈ before, Text.trim other ≠ Marker.definitions.text

theorem fill_nil (ls : List String) : fill [] ls = ls := by
  induction ls with
  | nil => rfl
  | cons line ls ih => rw [fill, List.find?_nil, ih]

theorem fill_append {wanted : List (Marker × List String)}
    (h : ∀ line ∈ before, ∀ want ∈ wanted, Text.trim line ≠ want.1.text) (rest : List String) :
    fill wanted (before ++ rest) = before ++ fill wanted rest := by
  induction before with
  | nil => rfl
  | cons line before ih =>
    have hnone : wanted.find? (fun want => Text.trim line == want.1.text) = none := by
      rw [List.find?_eq_none]
      simpa using h line List.mem_cons_self
    rw [List.cons_append, fill, hnone]
    simp only
    rw [ih fun l hl => h l (List.mem_cons_of_mem _ hl)]
    rfl

/-- The first line that is wanted. -/
theorem fill_of_first {wanted : List (Marker × List String)} (want : Marker × List String)
    (hbefore : ∀ other ∈ before, ∀ want ∈ wanted, Text.trim other ≠ want.1.text)
    (hfind : wanted.find? (fun want => Text.trim line == want.1.text) = some want) :
    fill wanted (before ++ line :: after) =
      before ++ inserted line want.2 ++ fill (wanted.filter (·.1 != want.1)) after := by
  rw [fill_append hbefore, fill, hfind, List.append_assoc]

/-- One marker. -/
theorem fill_one (texts after : List String)
    (hbefore : ∀ other ∈ before, Text.trim other ≠ marker.text)
    (hline : Text.trim line = marker.text) :
    fill [(marker, texts)] (before ++ line :: after) = before ++ inserted line texts ++ after := by
  rw [fill_of_first (marker, texts) (by simpa using hbefore)
      (List.find?_cons_of_pos (by simpa using hline)), List.filter_cons_of_neg (by simp),
    List.filter_nil, fill_nil]

/-! ## §3. Where the second step finds its marker -/

/-- White space in front of a line leaves what is left of it. -/
theorem trim_indentLine {indent : String} (h : ∀ c ∈ indent.toList, Text.isBlank c = true)
    (text : String) : Text.trim (indentLine indent text) = Text.trim text := by
  unfold indentLine
  split
  next hempty => rw [String.isEmpty_iff.mp hempty]
  next => exact Text.trim_append_of_blank h text

/-- A marker stands among the lines that texts become exactly if it stands in one of the texts. -/
theorem exists_mem_inserted (line : String) :
    (∃ other ∈ inserted line texts, Text.trim other = marker.text) ↔
      ∃ text ∈ texts, Offers text marker := by
  have htrim : ∀ text, Text.trim (indentLine (Text.indentOf line) text) = Text.trim text :=
    trim_indentLine fun c hc => Text.isBlank_indentOf hc
  constructor
  · rintro ⟨_, hother, hname⟩
    obtain ⟨own, hown, rfl⟩ := List.mem_map.mp hother
    obtain ⟨text, htext, hown⟩ := List.mem_flatMap.mp hown
    exact ⟨text, htext, own, hown, (htrim own).symm.trans hname⟩
  · rintro ⟨text, htext, own, hown, hname⟩
    exact ⟨_, List.mem_map_of_mem (List.mem_flatMap.mpr ⟨text, htext, hown⟩),
      (htrim own).trans hname⟩

/-- The lines that texts become have no line feeds in them. -/
theorem unbroken_inserted (hline : '\n' ∉ line.toList) (texts : List String) :
    Text.Unbroken (inserted line texts) := by
  intro other hother
  obtain ⟨own, hown, rfl⟩ := List.mem_map.mp hother
  obtain ⟨text, -, hown⟩ := List.mem_flatMap.mp hown
  unfold indentLine
  split
  · exact List.not_mem_nil
  · rw [String.toList_append, List.mem_append, not_or]
    refine ⟨fun hmem => hline ?_, Text.not_mem_of_mem_lines hown⟩
    rw [Text.indentOf, String.toList_ofList] at hmem
    exact List.takeWhile_subset _ hmem

theorem unbroken_splice (hplain : Text.Unbroken ls) {ls' : List String}
    (h : splice name texts ls = some ls') : Text.Unbroken ls' := by
  by_cases hmarker : ∃ line ∈ ls, Text.trim line = name
  · obtain ⟨before, line, after, rfl, hbefore, hline⟩ := exists_first hmarker
    rw [splice_of_first texts hbefore hline, Option.some.injEq] at h
    subst h
    simp only [Text.unbroken_append, Text.unbroken_cons] at hplain ⊢
    obtain ⟨hfront, hown, hback⟩ := hplain
    exact ⟨⟨hfront, unbroken_inserted hown texts⟩, hback⟩
  · rw [splice_eq_none texts fun line hline heq => hmarker ⟨line, hline, heq⟩] at h
    cases h

theorem text_ne : Marker.definitions.text ≠ Marker.body.text := by decide

/-- The marker of the body in front of the other one is where the second step finds it. -/
theorem exists_place_of_bodyFirst (hdefinitions : Offers template .definitions)
    (h : BodyFirst template) (declarations : List String) :
    ∃ before line after,
      splice Marker.definitions.text declarations (Text.lines template) =
          some (before ++ line :: after) ∧
        (∀ other ∈ before, Text.trim other ≠ Marker.body.text) ∧
        Text.trim line = Marker.body.text ∧
        ∀ body, fill [(.definitions, declarations), (.body, body)] (Text.lines template) =
          before ++ inserted line body ++ after := by
  obtain ⟨front, marker, rest, hlines, hmarker, hfront⟩ := h
  -- the first marker of the body stands no further behind
  obtain ⟨before, line, more, hsplit, hbefore, hline⟩ :=
    exists_first (show ∃ other ∈ front ++ [marker], Text.trim other = Marker.body.text from
      ⟨marker, by simp, hmarker⟩)
  have hneither : ∀ other ∈ before, Text.trim other ≠ Marker.definitions.text := by
    intro other hother
    have hmem : other ∈ front ++ [marker] := hsplit ▸ List.mem_append_left _ hother
    rcases List.mem_append.mp hmem with hmem | hmem
    · exact hfront other hmem
    · rw [List.mem_singleton.mp hmem] at hother
      exact absurd hmarker (hbefore marker hother)
  have hlines : Text.lines template = before ++ line :: (more ++ rest) := by
    rw [hlines, List.append_cons, hsplit, List.append_assoc, List.cons_append]
  obtain ⟨own, hown, hname⟩ := hdefinitions
  have hown : own ∈ more ++ rest := by
    rw [hlines] at hown
    rcases List.mem_append.mp hown with hown | hown
    · exact absurd hname (hneither own hown)
    · rcases List.mem_cons.mp hown with rfl | hown
      · exact absurd (hname.symm.trans hline) text_ne
      · exact hown
  obtain ⟨middle, place, back, hmore, hmiddle, hplace⟩ := exists_first ⟨own, hown, hname⟩
  have hfill : ∀ body, fill [(.definitions, declarations), (.body, body)] (Text.lines template) =
      before ++ inserted line body ++ (middle ++ inserted place declarations ++ back) := by
    intro body
    rw [hlines, hmore, fill_of_first (.body, body), ← fill_one _ _ hmiddle hplace]
    · rfl
    · simpa using fun other hother => ⟨hneither other hother, hbefore other hother⟩
    · rw [hline]
      rfl
  have hapart : ∀ other ∈ before ++ line :: middle,
      Text.trim other ≠ Marker.definitions.text := by
    intro other hother
    rcases List.mem_append.mp hother with hother | hother
    · exact hneither other hother
    · rcases List.mem_cons.mp hother with rfl | hother
      · exact fun heq => text_ne (heq.symm.trans hline)
      · exact hmiddle other hother
  refine ⟨before, line, middle ++ inserted place declarations ++ back, ?_, hbefore, hline, hfill⟩
  have hsplit : Text.lines template = (before ++ line :: middle) ++ place :: back := by
    rw [hlines, hmore, List.append_assoc, List.cons_append]
  rw [hsplit, splice_of_first declarations hapart hplace]
  simp

/-- Where the first line is the other marker, it does not stand in front. -/
theorem not_bodyFirst_of_first {rest : List String} (hlines : Text.lines source = line :: rest)
    (hline : Text.trim line = Marker.definitions.text) : ¬BodyFirst source := by
  rintro ⟨before, marker, after, hsplit, hmarker, hbefore⟩
  rw [hlines] at hsplit
  cases before with
  | nil =>
    obtain ⟨rfl, -⟩ := List.cons.inj hsplit
    exact text_ne (hline.symm.trans hmarker)
  | cons first before =>
    obtain ⟨rfl, -⟩ := List.cons.inj hsplit
    exact hbefore _ List.mem_cons_self hline

/-- Otherwise it stands behind, and the declarations between the two of them are read as well. -/
theorem exists_parts_of_not_bodyFirst (hdefinitions : Offers template .definitions)
    (hbody : Offers template .body) (h : ¬BodyFirst template) (declarations : List String) :
    ∃ front place middle marker back,
      splice Marker.definitions.text declarations (Text.lines template) =
          some (front ++ inserted place declarations ++ middle ++ marker :: back) ∧
        (∀ other ∈ front ++ middle, Text.trim other ≠ Marker.body.text) ∧
        Text.trim marker = Marker.body.text ∧
        ∀ body, fill [(.definitions, declarations), (.body, body)] (Text.lines template) =
          front ++ inserted place declarations ++ middle ++ inserted marker body ++ back := by
  obtain ⟨front, place, rest, hlines, hfront, hplace⟩ := exists_first hdefinitions
  -- a marker of the body among the lines in front would make the template start with the body
  have hnone : ∀ other ∈ front, Text.trim other ≠ Marker.body.text := by
    intro other hother hname
    obtain ⟨before, after, rfl⟩ := List.append_of_mem hother
    refine h ⟨before, other, after ++ place :: rest, by simp [hlines], hname, fun l hl => ?_⟩
    exact hfront l (List.mem_append_left _ hl)
  obtain ⟨own, hown, hname⟩ := hbody
  have hown : own ∈ rest := by
    rw [hlines] at hown
    rcases List.mem_append.mp hown with hown | hown
    · exact absurd hname (hnone own hown)
    · rcases List.mem_cons.mp hown with rfl | hown
      · exact absurd (hplace.symm.trans hname) text_ne
      · exact hown
  obtain ⟨middle, marker, back, hrest, hmiddle, hmarker⟩ := exists_first ⟨own, hown, hname⟩
  refine ⟨front, place, middle, marker, back, ?_, ?_, hmarker, fun body => ?_⟩
  · rw [hlines, splice_of_first declarations hfront hplace, hrest]
    simp
  · intro other hother
    rcases List.mem_append.mp hother with hother | hother
    · exact hnone other hother
    · exact hmiddle other hother
  · have hfill := fill_one body back hmiddle hmarker
    rw [hlines, hrest, fill_of_first (.definitions, declarations)]
    · rw [List.append_assoc, List.append_assoc, List.append_assoc, List.append_assoc,
        ← List.append_assoc middle, ← hfill]
      simp
    · simpa using fun other hother => ⟨hfront other hother, hnone other hother⟩
    · exact List.find?_cons_of_pos (by simpa using hplace)

/-- **Where the body goes if the declarations do not get in the way**: to the marker of the
    template. -/
theorem exists_place (hdefinitions : Offers template .definitions) (hbody : Offers template .body)
    (h : BodyFirst template ∨ ∀ text ∈ declarations, ¬Offers text .body) :
    ∃ before line after,
      splice Marker.definitions.text declarations (Text.lines template) =
          some (before ++ line :: after) ∧
        (∀ other ∈ before, Text.trim other ≠ Marker.body.text) ∧
        Text.trim line = Marker.body.text ∧
        ∀ body, fill [(.definitions, declarations), (.body, body)] (Text.lines template) =
          before ++ inserted line body ++ after := by
  by_cases hfirst : BodyFirst template
  · exact exists_place_of_bodyFirst hdefinitions hfirst declarations
  obtain ⟨front, place, middle, marker, back, hsplice, hothers, hmarker, hfill⟩ :=
    exists_parts_of_not_bodyFirst hdefinitions hbody hfirst declarations
  refine ⟨front ++ inserted place declarations ++ middle, marker, back, hsplice, ?_, hmarker,
    hfill⟩
  intro other hother hname
  rcases List.mem_append.mp hother with hother | hother
  · rcases List.mem_append.mp hother with hother | hother
    · exact hothers other (List.mem_append_left _ hother) hname
    · obtain ⟨text, htext, hoffers⟩ := (exists_mem_inserted place).mp ⟨other, hother, hname⟩
      exact h.resolve_left hfirst text htext hoffers
  · exact hothers other (List.mem_append_right _ hother) hname

/-- **Where it goes if they do**: to a line of theirs, and the marker of the template stays. -/
theorem exists_misplace (hdefinitions : Offers template .definitions)
    (hbody : Offers template .body) (hlate : ¬BodyFirst template)
    (h : ∃ text ∈ declarations, Offers text .body) :
    ∃ before line between marker back,
      splice Marker.definitions.text declarations (Text.lines template) =
          some (before ++ line :: (between ++ marker :: back)) ∧
        (∀ other ∈ before, Text.trim other ≠ Marker.body.text) ∧
        Text.trim line = Marker.body.text ∧ Text.trim marker = Marker.body.text ∧
        ∀ body, fill [(.definitions, declarations), (.body, body)] (Text.lines template) =
          before ++ line :: (between ++ inserted marker body ++ back) := by
  obtain ⟨front, place, middle, marker, back, hsplice, hothers, hmarker, hfill⟩ :=
    exists_parts_of_not_bodyFirst hdefinitions hbody hlate declarations
  obtain ⟨before, line, after, hinserted, hbefore, hline⟩ :=
    exists_first ((exists_mem_inserted place).mpr h)
  refine ⟨front ++ before, line, after ++ middle, marker, back, ?_, ?_, hline, hmarker, ?_⟩
  · rw [hsplice, hinserted]
    simp
  · intro other hother
    rcases List.mem_append.mp hother with hother | hother
    · exact hothers other (List.mem_append_left _ hother)
    · exact hbefore other hother
  · intro body
    rw [hfill, hinserted]
    simp

/-- The second step, on what the first one left: the lines around the marker are read back. -/
theorem insert_unlines (hplain : Text.Unbroken (before ++ line :: after))
    (hbefore : ∀ other ∈ before, Text.trim other ≠ marker.text)
    (hline : Text.trim line = marker.text) (stage : Stage) (texts : List String) :
    insert stage marker texts (Text.unlines (before ++ line :: after)) =
      .ok (Text.unlines
        (before.map Text.reread ++ inserted line texts ++ after.map Text.reread)) := by
  have hread : ∀ other ∈ before.map Text.reread, Text.trim other ≠ marker.text := by
    intro other hother
    obtain ⟨own, hown, rfl⟩ := List.mem_map.mp hother
    rw [Text.trim_reread]
    exact hbefore own hown
  have hindent : inserted (Text.reread line) texts = inserted line texts := by
    have hname : Text.trim line ≠ "" := by
      rw [hline]
      cases marker <;> decide
    rw [inserted, inserted, Text.indentOf_reread hname]
  rw [insert, Text.lines_unlines (by simp) hplain, List.map_append, List.map_cons,
    splice_of_first texts hread ((Text.trim_reread line).trans hline), hindent]

end Template

/-! ## §4. Stages -/

open Template

variable {template : String} {p : Progress} {stage : Stage}

/-- What a stage in its template is, once the declarations are in their place. -/
theorem Progress.render_eq {before after : List String} {line : String}
    (hsplice : splice Marker.definitions.text (p.listing.definitionLines stage)
      (Text.lines template) = some (before ++ line :: after))
    (hbefore : ∀ other ∈ before, Text.trim other ≠ Marker.body.text)
    (hline : Text.trim line = Marker.body.text) (epilogue : List String) :
    p.render template stage epilogue = .ok (Text.unlines (before.map Text.reread ++
      inserted line (p.bodyTexts stage epilogue) ++ after.map Text.reread)) := by
  have hplain := unbroken_splice (Text.unbroken_lines template) hsplice
  have hfirst : Template.insert stage .definitions (p.listing.definitionLines stage) template =
      .ok (Text.unlines (before ++ line :: after)) := by
    rw [Template.insert, hsplice]
  rw [render, hfirst]
  exact insert_unlines hplain hbefore hline stage _

theorem Template.length_inserted (line other : String) (texts : List String) :
    (inserted line texts).length = (inserted other texts).length := by
  rw [inserted, inserted, List.length_map, List.length_map]

/-- Texts in the place of one marker, with the other one standing behind, are not what they are in
    the place of the other one: their last line would have to be the marker. -/
theorem Template.ne_of_misplaced {before between back texts rest : List String}
    {line marker last : String} (hmarker : Text.trim marker = Marker.body.text)
    (htexts : inserted marker texts = rest ++ [last])
    (hlast : Text.trim last ≠ Marker.body.text) :
    before.map Text.reread ++ inserted line texts ++
        (between ++ marker :: back).map Text.reread ≠
      before ++ line :: (between ++ inserted marker texts ++ back) := by
  intro heq
  have hlength := length_inserted line marker texts
  rw [htexts, List.length_append, List.length_singleton] at hlength
  -- cut both sides where as many lines are left as stand behind the marker of the template
  have hsplit : (before.map Text.reread ++ inserted line texts ++ between.map Text.reread) ++
        Text.reread marker :: back.map Text.reread =
      (before ++ line :: (between ++ rest)) ++ last :: back := by
    rw [htexts] at heq
    simpa using heq
  obtain ⟨-, htail⟩ := List.append_inj hsplit (by simp; omega)
  obtain ⟨rfl, -⟩ := List.cons.inj htail
  exact hlast ((Text.trim_reread marker).trans hmarker)

/-- **Where the body has its place**, a stage comes to the template with both texts filled in
    exactly if no line beside the body loses a carriage return. -/
theorem Progress.render_eq_fill_iff (hdefinitions : Offers template .definitions)
    (hbody : Offers template .body)
    (hown : BodyFirst template ∨ ∀ text ∈ p.listing.definitionLines stage, ¬Offers text .body)
    (epilogue : List String) :
    p.render template stage epilogue = .ok (Text.unlines (fill
        [(.definitions, p.listing.definitionLines stage), (.body, p.bodyTexts stage epilogue)]
        (Text.lines template))) ↔
      ∀ line ∈ fill [(.definitions, p.listing.definitionLines stage), (.body, [])]
        (Text.lines template), line.toList.getLast? ≠ some '\r' := by
  obtain ⟨before, line, after, hsplice, hbefore, hline, hfill⟩ :=
    exists_place hdefinitions hbody hown
  have hplain := unbroken_splice (Text.unbroken_lines template) hsplice
  simp only [Text.unbroken_append, Text.unbroken_cons] at hplain
  obtain ⟨hplainBefore, hplainLine, hplainAfter⟩ := hplain
  have hplainBody := unbroken_inserted hplainLine (p.bodyTexts stage epilogue)
  have hnobody : inserted line [] = [] := rfl
  rw [Progress.render_eq hsplice hbefore hline, hfill, hfill, hnobody, List.append_nil,
    Except.ok.injEq]
  constructor
  · intro htext
    -- the texts tell their lines, and those beside the body differ by the second reading only
    have hlines := Text.unlines_injective (by simp)
      (by simpa only [Text.unbroken_append] using
        ⟨⟨hplainBefore.map_reread, hplainBody⟩, hplainAfter.map_reread⟩)
      (by simpa only [Text.unbroken_append] using ⟨⟨hplainBefore, hplainBody⟩, hplainAfter⟩) htext
    obtain ⟨hfront, hback⟩ := List.append_inj hlines (by simp)
    have hsame : (before ++ after).map Text.reread = before ++ after := by
      rw [List.map_append, List.append_cancel_right hfront, hback]
    intro l hl
    rw [← Text.reread_eq_self]
    exact List.map_inj_left.mp (hsame.trans (List.map_id _).symm) l hl
  · intro hreturns
    have hread : ∀ l ∈ before ++ after, Text.reread l = l :=
      fun l hl => Text.reread_eq_self.mpr (hreturns l hl)
    rw [List.map_congr_left fun l hl => hread l (List.mem_append_left _ hl),
      List.map_congr_left fun l hl => hread l (List.mem_append_right _ hl), List.map_id',
      List.map_id']

/-- **Where the declarations get in the way**, it does not come to that, unless the last line of the
    epilogue could be taken for the marker. -/
theorem Progress.render_ne_fill (hdefinitions : Offers template .definitions)
    (hbody : Offers template .body) (hlate : ¬BodyFirst template)
    (h : ∃ text ∈ p.listing.definitionLines stage, Offers text .body) (epilogue : List String)
    {last : String} (hlast : Text.lines last = [last])
    (hplain : Text.trim last ≠ Marker.body.text) :
    p.render template stage (epilogue ++ [last]) ≠ .ok (Text.unlines (fill
      [(.definitions, p.listing.definitionLines stage),
        (.body, p.bodyTexts stage (epilogue ++ [last]))] (Text.lines template))) := by
  obtain ⟨before, line, between, marker, back, hsplice, hbefore, hline, hmarker, hfill⟩ :=
    exists_misplace hdefinitions hbody hlate h
  have hunbroken := unbroken_splice (Text.unbroken_lines template) hsplice
  simp only [Text.unbroken_append, Text.unbroken_cons] at hunbroken
  obtain ⟨hplainBefore, hplainLine, hplainBetween, hplainMarker, hplainBack⟩ := hunbroken
  rw [Progress.render_eq hsplice hbefore hline, hfill]
  intro htext
  have htexts : inserted marker (p.bodyTexts stage (epilogue ++ [last])) =
      inserted marker (p.bodyTexts stage epilogue) ++ [indentLine (Text.indentOf marker) last] := by
    simp [inserted, Progress.bodyTexts, hlast]
  have hname : Text.trim (indentLine (Text.indentOf marker) last) ≠ Marker.body.text := by
    rwa [trim_indentLine fun c hc => Text.isBlank_indentOf hc]
  refine ne_of_misplaced hmarker htexts hname
    (Text.unlines_injective ?_ ?_ ?_ (Except.ok.inj htext))
  · have hlength := length_inserted line marker (p.bodyTexts stage (epilogue ++ [last]))
    simp only [List.length_append, List.length_map, List.length_cons] at hlength ⊢
    omega
  · simp only [Text.unbroken_append]
    refine ⟨⟨hplainBefore.map_reread, unbroken_inserted hplainLine _⟩, ?_⟩
    apply Text.Unbroken.map_reread
    exact Text.unbroken_append.mpr
      ⟨hplainBetween, Text.unbroken_cons.mpr ⟨hplainMarker, hplainBack⟩⟩
  · simp only [Text.unbroken_append, Text.unbroken_cons]
    exact ⟨hplainBefore, hplainLine, ⟨hplainBetween, unbroken_inserted hplainMarker _⟩, hplainBack⟩

/-- **When the two steps do not interfere.**  Take a template with both markers.  With every
    epilogue a stage comes to the lines of the template with the declarations and the body in the
    places of their own markers, exactly if the marker of the body stands first or is in none of
    the declarations, and no line beside the body ends with a carriage return. -/
theorem Progress.renders_iff (hdefinitions : Offers template .definitions)
    (hbody : Offers template .body) (p : Progress) (stage : Stage) :
    (∀ epilogue, p.render template stage epilogue = .ok (Text.unlines (fill
        [(.definitions, p.listing.definitionLines stage), (.body, p.bodyTexts stage epilogue)]
        (Text.lines template)))) ↔
      (BodyFirst template ∨ ∀ text ∈ p.listing.definitionLines stage, ¬Offers text .body) ∧
        ∀ line ∈ fill [(.definitions, p.listing.definitionLines stage), (.body, [])]
          (Text.lines template), line.toList.getLast? ≠ some '\r' := by
  constructor
  · intro h
    have hown : BodyFirst template ∨
        ∀ text ∈ p.listing.definitionLines stage, ¬Offers text .body := by
      by_contra hnot
      push Not at hnot
      -- an epilogue that ends with anything but the marker shows the difference
      have hlast : Text.lines "x" = ["x"] := by decide
      exact Progress.render_ne_fill hdefinitions hbody hnot.1 hnot.2 [] hlast (by decide) (h ["x"])
    exact ⟨hown, (Progress.render_eq_fill_iff hdefinitions hbody hown []).mp (h [])⟩
  · rintro ⟨hown, hreturns⟩ epilogue
    exact (Progress.render_eq_fill_iff hdefinitions hbody hown epilogue).mpr hreturns

/-! ## §5. A function with a marker -/

namespace Material

/-- A function without parameters. -/
def half (statements : List String) : ShaderFunction where
  name := "half"
  description := "A half"
  inputs := []
  output := .float
  source := Library.definition "float half()" statements

/-- A library of this function alone. -/
def halfContext (statements : List String) : Context where
  library := Library.register {} (half statements)

/-- A material whose alpha is what the function returns. -/
def halved : Graph :=
  { Graph.empty "g" with
    nodes :=
      [.make ⟨1⟩ "out" (.output .material),
       .make ⟨2⟩ "half" (.function "half" [] .float)]
    connections := [⟨⟨3⟩, ⟨2⟩, "result", ⟨1⟩, "alpha"⟩]
    version := 3 }

/-- The lines of the template of the fragment stage. -/
theorem lines_fragmentTemplate : Text.lines fragmentTemplate =
    ["// INSERT DEFINITIONS", "", "void main() \x7b", "\t// INSERT BODY", "\x7d"] := by
  decide +kernel

/-- The template, with the function. -/
theorem halved_fills : ∃ p,
    Backend.material.pass halved (halfContext ["return 0.5;"]) = .ok p ∧
      ∀ epilogue, p.render fragmentTemplate .fragment epilogue = .ok (Text.unlines (fill
        [(.definitions, p.listing.definitionLines .fragment),
          (.body, p.bodyTexts .fragment epilogue)] (Text.lines fragmentTemplate))) := by
  have hpass : (Backend.material.pass halved (halfContext ["return 0.5;"])).map
      (fun p => p.listing.definitionLines .fragment) =
      .ok ["precision highp float;", "float half() \x7b\n\treturn 0.5;\n\x7d"] := by
    decide +kernel
  obtain ⟨p, hp, hlines⟩ := map_eq_ok.mp hpass
  have hoffers : ∀ marker, Offers fragmentTemplate marker := @offers_template {} rfl .fragment
  refine ⟨p, hp, (p.renders_iff (hoffers .definitions) (hoffers .body) .fragment).mpr ⟨.inr ?_, ?_⟩⟩
  · rw [hlines]
    unfold Offers
    decide +kernel
  · rw [hlines, lines_fragmentTemplate]
    decide +kernel

/-- Where a line of the function is the marker of the body, the body goes there, and the marker of
    the template is left in the code. -/
theorem marked_misplaced : ∃ program p,
    Backend.material.compile halved (halfContext ["// INSERT BODY", "return 0.5;"]) =
        (.material, .ok (.material program)) ∧
      Backend.material.pass halved (halfContext ["// INSERT BODY", "return 0.5;"]) = .ok p ∧
      (∀ marker, Offers fragmentTemplate marker) ∧
      p.render fragmentTemplate .fragment [fragmentEpilogue] = .ok program.fragment ∧
      program.fragment = Text.unlines
        ["precision highp float;",
         "float half() \x7b",
         "\tfloat v_half_result = half();",
         "\tvec4 diffuseColor = vec4(vec3(1.0, 1.0, 1.0), v_half_result);",
         "\tgl_FragColor = diffuseColor;",
         "\treturn 0.5;",
         "\x7d",
         "",
         "void main() \x7b",
         "\t// INSERT BODY",
         "\x7d"] ∧
      program.fragment ≠ Text.unlines (fill
        [(.definitions, p.listing.definitionLines .fragment),
          (.body, p.bodyTexts .fragment [fragmentEpilogue])] (Text.lines fragmentTemplate)) := by
  have hpass : (Backend.material.pass halved
      (halfContext ["// INSERT BODY", "return 0.5;"])).map (fun p =>
        (p.listing.definitionLines .fragment, p.bodyTexts .fragment [fragmentEpilogue])) =
      .ok (["precision highp float;",
          "float half() \x7b\n\t// INSERT BODY\n\treturn 0.5;\n\x7d"],
        ["float v_half_result = half();",
          "vec4 diffuseColor = vec4(vec3(1.0, 1.0, 1.0), v_half_result);",
          "gl_FragColor = diffuseColor;"]) := by
    decide +kernel
  obtain ⟨p, hp, heval⟩ := map_eq_ok.mp hpass
  obtain ⟨hdefinitions, hbody⟩ := Prod.mk.inj heval
  obtain ⟨program, hassemble, -⟩ := @MaterialProgram.exists_assemble {} rfl p
  have hrender : p.render fragmentTemplate .fragment [fragmentEpilogue] = .ok program.fragment := by
    obtain ⟨_, -, hfragment⟩ := bind_eq_ok.mp hassemble
    obtain ⟨fragment, hrender, hprogram⟩ := bind_eq_ok.mp hfragment
    rw [← pure_eq_ok.mp hprogram]
    exact hrender
  have hoffers : ∀ marker, Offers fragmentTemplate marker := @offers_template {} rfl .fragment
  refine ⟨program, p, ?_, hp, hoffers, hrender, ?_, ?_⟩
  · exact Prod.ext rfl (bind_eq_ok.mpr ⟨p, hp, bind_eq_ok.mpr ⟨_, hassemble, rfl⟩⟩)
  · -- the second step stops at the comment, which the template does not have
    have hsplice : splice Marker.definitions.text (p.listing.definitionLines .fragment)
        (Text.lines fragmentTemplate) =
          some (["precision highp float;", "float half() \x7b"] ++ "\t// INSERT BODY" ::
            ["\treturn 0.5;", "\x7d", "", "void main() \x7b", "\t// INSERT BODY", "\x7d"]) := by
      rw [hdefinitions, lines_fragmentTemplate]
      decide +kernel
    have htext := Progress.render_eq hsplice (by decide +kernel) (by decide +kernel)
      [fragmentEpilogue]
    rw [hrender, hbody] at htext
    rw [Except.ok.inj htext]
    exact congrArg Text.unlines (by decide +kernel)
  · have hlate : ¬BodyFirst fragmentTemplate :=
      not_bodyFirst_of_first lines_fragmentTemplate (by decide +kernel)
    have hmarked : ∃ text ∈ p.listing.definitionLines .fragment, Offers text .body := by
      rw [hdefinitions]
      exact ⟨_, List.mem_cons_of_mem _ List.mem_cons_self, "\t// INSERT BODY",
        by decide +kernel, by decide +kernel⟩
    have hne := Progress.render_ne_fill (hoffers .definitions) (hoffers .body) hlate hmarked []
      (show Text.lines fragmentEpilogue = [fragmentEpilogue] by decide +kernel) (by decide +kernel)
    intro heq
    exact hne (hrender.trans (congrArg _ heq))

end Material

end ShaderFlow
