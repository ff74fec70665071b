/-
  ShaderFlow.Proofs.Lines — texts and their lines.

  A line ends at a line feed, which may have a carriage return in front of it.  So a text that is
  cut and joined again has other line ends, and a line that itself ends with a carriage return
  loses it when it is joined and cut again.

  Main definitions:
    * `Text.HasLines` — a text and its lines, said of the text as it stands;
    * `Text.Unbroken` — lines that can be joined and cut again;
    * `Text.reread`   — what becomes of one of them.

  Main statements:
    * `Text.hasLines_iff`      — the lines that a text is cut into;
    * `Text.lines_unlines`     — lines that are joined and cut again;
    * `Text.unlines_injective` — a text is joined from one list of lines only;
    * `Text.eq_around_trim`    — a line is what is left of it between white space.
-/

import Mathlib.Data.List.TakeWhile
import ShaderFlow.Proofs.Basic
import ShaderFlow.Text.Lines

namespace ShaderFlow

/-! ## §1. Lines -/

namespace Text

/-- Behind a line feed the reading starts afresh. -/
theorem linesFrom_append (back : List Char) :
    ∀ front current : List Char,
      linesFrom current (front ++ '\n' :: back) =
        linesFrom current (front ++ ['\n']) ++ linesFrom [] back
  | [], current => by simp [linesFrom]
  | c :: front, current => by
    by_cases hc : c = '\n'
    · subst hc
      simp only [List.cons_append, linesFrom]
      rw [linesFrom_append back front []]
    · simp only [List.cons_append, linesFrom]
      exact linesFrom_append back front (current ++ [c])

/-- What stands before the first line feed is a line. -/
theorem linesFrom_of_not_mem (back : List Char) :
    ∀ (line current : List Char), '\n' ∉ line →
      linesFrom current (line ++ '\n' :: back) =
        dropReturn (current ++ line) :: linesFrom [] back
  | [], current, _ => by simp [linesFrom]
  | c :: line, current, h => by
    have hc : c ≠ '\n' := fun heq => h (heq ▸ List.mem_cons_self)
    have hline := linesFrom_of_not_mem back line (current ++ [c])
      fun hmem => h (List.mem_cons_of_mem c hmem)
    simp only [List.cons_append, linesFrom]
    rw [hline, List.append_assoc, List.singleton_append]

theorem dropReturn_subset (line : List Char) : dropReturn line ⊆ line := by
  unfold dropReturn
  split
  · exact List.dropLast_subset line
  · exact List.Subset.refl line

/-- No line has a line feed in it. -/
theorem not_mem_of_mem_linesFrom {line : List Char} :
    ∀ {text current : List Char}, '\n' ∉ current → line ∈ linesFrom current text → '\n' ∉ line
  | [], current, hcurrent, hline => by
    unfold linesFrom at hline
    split at hline
    · cases hline
    · rwa [List.mem_singleton.mp hline]
  | c :: text, current, hcurrent, hline => by
    by_cases hc : c = '\n'
    · subst hc
      rcases List.mem_cons.mp hline with rfl | hline
      · exact fun hmem => hcurrent (dropReturn_subset current hmem)
      · exact not_mem_of_mem_linesFrom List.not_mem_nil hline
    · simp only [linesFrom] at hline
      refine not_mem_of_mem_linesFrom (fun hmem => ?_) hline
      rcases List.mem_append.mp hmem with hmem | hmem
      · exact hcurrent hmem
      · exact hc (List.mem_singleton.mp hmem).symm

theorem not_mem_of_mem_lines {text line : String} (h : line ∈ lines text) :
    '\n' ∉ line.toList := by
  obtain ⟨cs, hcs, rfl⟩ := List.mem_map.mp h
  rw [String.toList_ofList]
  exact not_mem_of_mem_linesFrom List.not_mem_nil hcs

/-- Lines that have no line feeds in them. -/
def Unbroken (ls : List String) : Prop := ∀ line ∈ ls, '\n' ∉ line.toList

theorem unbroken_lines (text : String) : Unbroken (lines text) :=
  fun _ hline => not_mem_of_mem_lines hline

theorem unbroken_append {ls ls' : List String} :
    Unbroken (ls ++ ls') ↔ Unbroken ls ∧ Unbroken ls' := List.forall_mem_append

theorem unbroken_cons {line : String} {ls : List String} :
    Unbroken (line :: ls) ↔ '\n' ∉ line.toList ∧ Unbroken ls := List.forall_mem_cons

/-- A line as it is read back: without a carriage return at its end. -/
def reread (line : String) : String := String.ofList (dropReturn line.toList)

theorem Unbroken.map_reread {ls : List String} (h : Unbroken ls) : Unbroken (ls.map reread) := by
  intro line hline
  obtain ⟨own, hown, rfl⟩ := List.mem_map.mp hline
  rw [reread, String.toList_ofList]
  exact fun hmem => h own hown (dropReturn_subset own.toList hmem)

theorem toList_unlines :
    ∀ {ls : List String}, ls ≠ [] →
      (unlines ls).toList = ls.flatMap fun line => line.toList ++ ['\n']
  | [line], _ => by simp [unlines, String.toList_append]
  | line :: next :: ls, _ => by
    have hrest := toList_unlines (List.cons_ne_nil next ls)
    simp only [unlines, String.toList_append, String.toList_intercalate] at hrest ⊢
    rw [List.flatMap_cons, ← hrest]
    simp

/-- **Lines that are joined are read back when they are cut again.** -/
theorem mem_lines_unlines {ls : List String} {line : String} (h : line ∈ ls)
    (hline : '\n' ∉ line.toList) : reread line ∈ lines (unlines ls) := by
  have hread : ∀ ls : List String, line ∈ ls →
      dropReturn line.toList ∈ linesFrom [] (ls.flatMap fun line => line.toList ++ ['\n']) := by
    intro ls
    induction ls with
    | nil => exact nofun
    | cons other ls ih =>
      intro hmem
      rw [List.flatMap_cons, List.append_assoc, List.singleton_append]
      rcases List.mem_cons.mp hmem with rfl | hmem
      · rw [linesFrom_of_not_mem _ _ _ hline]
        exact List.mem_cons_self
      · rw [linesFrom_append]
        exact List.mem_append_right _ (ih hmem)
  rw [lines, toList_unlines (List.ne_nil_of_mem h)]
  exact List.mem_map_of_mem (hread ls h)

/-- **Lines that are joined and cut again** come back, but for carriage returns at their ends. -/
theorem lines_unlines {ls : List String} (hne : ls ≠ []) (hplain : Unbroken ls) :
    lines (unlines ls) = ls.map reread := by
  have hcut : ∀ {ls : List String}, Unbroken ls →
      linesFrom [] (ls.flatMap fun line => line.toList ++ ['\n']) =
        ls.map fun line => dropReturn line.toList := by
    intro ls hplain
    induction ls with
    | nil => rfl
    | cons line ls ih =>
      obtain ⟨hline, hls⟩ := unbroken_cons.mp hplain
      rw [List.flatMap_cons, List.append_assoc, List.singleton_append,
        linesFrom_of_not_mem _ _ _ hline, ih hls]
      rfl
  rw [lines, toList_unlines hne, hcut hplain, List.map_map]
  rfl

/-- What stands before the first line feed, and behind it, is determined by the text. -/
theorem eq_of_feed_eq {line line' rest rest' : List Char} (hplain : '\n' ∉ line)
    (hplain' : '\n' ∉ line') (h : line ++ '\n' :: rest = line' ++ '\n' :: rest') :
    line = line' ∧ rest = rest' := by
  rcases List.append_eq_append_iff.mp h with ⟨more, rfl, hrest⟩ | ⟨more, rfl, hrest⟩
  · cases more with
    | nil => simpa using hrest
    | cons c more =>
      obtain ⟨rfl, -⟩ := List.cons.inj hrest
      exact absurd (List.mem_append_right _ List.mem_cons_self) hplain'
  · cases more with
    | nil => simpa using hrest.symm
    | cons c more =>
      obtain ⟨rfl, -⟩ := List.cons.inj hrest
      exact absurd (List.mem_append_right _ List.mem_cons_self) hplain

/-- **A text is joined from one list of lines only**, of so many lines. -/
theorem unlines_injective {ls ls' : List String} (hlength : ls.length = ls'.length)
    (hplain : Unbroken ls) (hplain' : Unbroken ls') (h : unlines ls = unlines ls') :
    ls = ls' := by
  by_cases hne : ls = []
  · rw [hne, List.length_nil] at hlength
    rw [hne, List.length_eq_zero_iff.mp hlength.symm]
  have hne' : ls' ≠ [] := by
    rintro rfl
    exact hne (List.length_eq_zero_iff.mp hlength)
  have hchars := congrArg String.toList h
  rw [toList_unlines hne, toList_unlines hne'] at hchars
  -- as characters, lists without lines fit in as well, and the induction can start there
  clear h hne hne'
  induction ls generalizing ls' with
  | nil => exact (List.length_eq_zero_iff.mp hlength.symm).symm
  | cons line ls ih =>
    cases ls' with
    | nil => cases hlength
    | cons line' ls' =>
      simp only [List.flatMap_cons, List.append_assoc, List.singleton_append] at hchars
      rw [unbroken_cons] at hplain hplain'
      obtain ⟨hline, hrest⟩ := eq_of_feed_eq hplain.1 hplain'.1 hchars
      rw [String.toList_inj.mp hline, ih (Nat.succ.inj hlength) hplain.2 hplain'.2 hrest]

/-! ## §2. Lines of a text as it stands -/

/-- A text and its lines.  Each ends at a line feed, which takes along a carriage return in front
    of it; behind the last line feed there may be one more line, which is not empty. -/
inductive HasLines : String → List String → Prop where
  | empty : HasLines "" []
  | last {line : String} (hplain : '\n' ∉ line.toList) (hne : line ≠ "") : HasLines line [line]
  | feed {line text : String} {ls : List String} (hplain : '\n' ∉ line.toList)
      (hreturn : line.toList.getLast? ≠ some '\r') (h : HasLines text ls) :
      HasLines (line ++ "\n" ++ text) (line :: ls)
  | returnFeed {line text : String} {ls : List String} (hplain : '\n' ∉ line.toList)
      (h : HasLines text ls) : HasLines (line ++ "\r\n" ++ text) (line :: ls)

/-- What stands before the first line feed is the first line. -/
theorem lines_feed {line : String} (hplain : '\n' ∉ line.toList) (text : String) :
    lines (line ++ "\n" ++ text) = reread line :: lines text := by
  have hchars : (line ++ "\n" ++ text).toList = line.toList ++ '\n' :: text.toList := by
    simp [String.toList_append]
  rw [lines, hchars, linesFrom_of_not_mem _ _ _ hplain]
  rfl

/-- A line without a carriage return at its end is read back as it was. -/
theorem reread_eq_self {line : String} :
    reread line = line ↔ line.toList.getLast? ≠ some '\r' := by
  unfold reread dropReturn
  split
  next hlast =>
    obtain ⟨front, hfront⟩ := List.getLast?_eq_some_iff.mp hlast
    rw [hfront, List.dropLast_concat, ← String.toList_inj, String.toList_ofList, hfront]
    simp
  next hlast => simp [hlast]

theorem reread_return (line : String) : reread (line ++ "\r") = line := by
  have hchars : (line ++ "\r").toList = line.toList ++ ['\r'] := String.toList_append
  rw [reread, dropReturn, hchars, if_pos List.getLast?_concat, List.dropLast_concat,
    String.ofList_toList]

/-- A text without line feeds is read to its end. -/
theorem linesFrom_plain :
    ∀ (line current : List Char), '\n' ∉ line →
      linesFrom current line = if (current ++ line).isEmpty then [] else [current ++ line]
  | [], current, _ => by simp [linesFrom]
  | c :: line, current, h => by
    have hc : c ≠ '\n' := fun heq => h (heq ▸ List.mem_cons_self)
    simp only [linesFrom]
    rw [linesFrom_plain line (current ++ [c]) fun hmem => h (List.mem_cons_of_mem c hmem),
      List.append_assoc, List.singleton_append]

/-- Without line feeds it is one line, if there is anything. -/
theorem lines_plain {line : String} (hplain : '\n' ∉ line.toList) (hne : line ≠ "") :
    lines line = [line] := by
  have hchars : line.toList ≠ [] := fun hnil => hne (String.toList_eq_nil_iff.mp hnil)
  rw [lines, linesFrom_plain _ _ hplain, List.nil_append, if_neg (by simpa using hchars)]
  simp

/-- A carriage return in front of a line feed goes with it. -/
theorem lines_returnFeed {line : String} (hplain : '\n' ∉ line.toList) (text : String) :
    lines (line ++ "\r\n" ++ text) = line :: lines text := by
  have hsplit : line ++ "\r\n" ++ text = line ++ "\r" ++ "\n" ++ text := by
    rw [← String.toList_inj]
    simp [String.toList_append]
  rw [hsplit, lines_feed (by simpa [String.toList_append] using hplain), reread_return]

theorem hasLines_lines (text : String) : HasLines text (lines text) := by
  -- the text is cut at its first feed, and the rest has its lines by induction on the length
  by_cases hfeed : '\n' ∈ text.toList
  · obtain ⟨front, back, hchars, hplain⟩ := List.eq_append_cons_of_mem hfeed
    have hshorter : back.length < text.toList.length := by
      rw [hchars, List.length_append, List.length_cons]
      omega
    have hback := hasLines_lines (String.ofList back)
    by_cases hreturn : front.getLast? = some '\r'
    · obtain ⟨line, rfl⟩ := List.getLast?_eq_some_iff.mp hreturn
      have hline : '\n' ∉ (String.ofList line).toList := by simpa using hplain
      have htext : text = String.ofList line ++ "\r\n" ++ String.ofList back := by
        rw [← String.toList_inj, hchars]
        simp [String.toList_append]
      rw [htext, lines_returnFeed hline]
      exact .returnFeed hline hback
    · have hfront : '\n' ∉ (String.ofList front).toList := by simpa using hplain
      have hlast : (String.ofList front).toList.getLast? ≠ some '\r' := by simpa using hreturn
      have htext : text = String.ofList front ++ "\n" ++ String.ofList back := by
        rw [← String.toList_inj, hchars]
        simp [String.toList_append]
      rw [htext, lines_feed hfront, reread_eq_self.mpr hlast]
      exact .feed hfront hlast hback
  · by_cases hempty : text = ""
    · subst hempty
      exact .empty
    · rw [lines_plain hfeed hempty]
      exact .last hfeed hempty
termination_by text.toList.length
decreasing_by simpa using hshorter

theorem HasLines.lines_eq {text : String} {ls : List String} (h : HasLines text ls) :
    lines text = ls := by
  induction h with
  | empty => rfl
  | last hplain hne => exact lines_plain hplain hne
  | feed hplain hreturn h ih => rw [lines_feed hplain, ih, reread_eq_self.mpr hreturn]
  | returnFeed hplain h ih => rw [lines_returnFeed hplain, ih]

/-- **What a text is cut into.** -/
theorem hasLines_iff {text : String} {ls : List String} : HasLines text ls ↔ lines text = ls :=
  ⟨HasLines.lines_eq, fun h => h ▸ hasLines_lines text⟩

/-! ## §3. White space -/

/-- A carriage return at the end counts as white space. -/
theorem trim_reread (line : String) : trim (reread line) = trim line := by
  have hblank : isBlank '\r' = true := by decide
  unfold reread dropReturn
  split
  next hlast =>
    obtain ⟨front, hfront⟩ := List.getLast?_eq_some_iff.mp hlast
    rw [hfront, List.dropLast_concat, trim, trim, trimEnd, trimEnd, trimStart, trimStart, hfront]
    simp only [String.toList_ofList]
    rw [List.dropWhile_append]
    split
    next hempty =>
      rw [List.isEmpty_iff.mp hempty]
      simp [hblank]
    next => simp [hblank]
  next => rw [String.ofList_toList]

variable {line indent : String}

theorem isBlank_indentOf {c : Char} (h : c ∈ (indentOf line).toList) : isBlank c = true := by
  rw [indentOf, String.toList_ofList] at h
  exact List.mem_takeWhile_imp h

theorem trim_of_blank (h : ∀ c ∈ line.toList, isBlank c = true) : trim line = "" := by
  have hstart : line.toList.dropWhile isBlank = [] := List.dropWhile_eq_nil_iff.mpr h
  rw [trim, trimStart, hstart]
  rfl

/-- White space in front does not count. -/
theorem trim_append_of_blank (h : ∀ c ∈ indent.toList, isBlank c = true) (line : String) :
    trim (indent ++ line) = trim line := by
  rw [trim, trim, trimStart, trimStart, String.toList_append, List.dropWhile_append_of_pos h]

/-- **A line is what is left of it between white space.** -/
theorem eq_around_trim (line : String) :
    ∃ back, (∀ c ∈ back.toList, isBlank c = true) ∧ line = indentOf line ++ trim line ++ back := by
  let start := line.toList.dropWhile isBlank
  refine ⟨String.ofList (start.reverse.takeWhile isBlank).reverse, ?_, ?_⟩
  · intro c hc
    rw [String.toList_ofList, List.mem_reverse] at hc
    exact List.mem_takeWhile_imp hc
  · have hstart : (start.reverse.dropWhile isBlank).reverse ++
        (start.reverse.takeWhile isBlank).reverse = start := by
      rw [← List.reverse_append, List.takeWhile_append_dropWhile, List.reverse_reverse]
    rw [← String.toList_inj]
    simp only [String.toList_append, indentOf, trim, trimEnd, trimStart, String.toList_ofList,
      List.append_assoc]
    rw [hstart, List.takeWhile_append_dropWhile]

/-- A carriage return at the end is no part of the white space in front of something. -/
theorem indentOf_reread (h : trim line ≠ "") : indentOf (reread line) = indentOf line := by
  unfold reread dropReturn
  split
  next hlast =>
    obtain ⟨front, hfront⟩ := List.getLast?_eq_some_iff.mp hlast
    rw [hfront, List.dropLast_concat, indentOf, indentOf, String.toList_ofList, hfront,
      List.takeWhile_append]
    split
    next hall =>
      -- a line of white space would be left empty
      refine absurd (trim_of_blank fun c hc => ?_) h
      have hfrontBlank : front.takeWhile isBlank = front :=
        (List.takeWhile_prefix _).eq_of_length hall
      rw [hfront] at hc
      rcases List.mem_append.mp hc with hc | hc
      · exact List.takeWhile_eq_self_iff.mp hfrontBlank c hc
      · rw [List.mem_singleton.mp hc]
        decide
    next => rfl
  next => rw [String.ofList_toList]

end Text

end ShaderFlow
