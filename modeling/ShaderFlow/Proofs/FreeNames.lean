/-
  ShaderFlow.Proofs.FreeNames — the names that nodes get.

  A node gets the name it asks for, made fit for code, or the stem of that name with the first
  number that no node of the network has.  There are more numbers than nodes, so the search for
  one comes to an end.

  Main definitions:
    * `FitForCode`        — names of ASCII letters, digits and underscores;
    * `Graph.FreeFor`     — the name that the search under a requested name is to find.

  Main statements:
    * `Graph.freeFor_freeName` — it finds that name;
    * `Graph.fitForCode_freeName` — and the name is fit for code.
-/

import Mathlib.Data.List.Nodup
import Mathlib.Data.List.Perm.Subperm
import ShaderFlow.Graph.Edit

namespace ShaderFlow

variable {g : Graph}

/-! ## §1. Names that are fit for code -/

/-- A name that may stand in code: of ASCII letters, digits and underscores, and not empty. -/
def FitForCode (name : String) : Prop := name ≠ "" ∧ ∀ c ∈ name.toList, isNameChar c = true

theorem fitForCode_cleanName (requested : String) : FitForCode (cleanName requested) := by
  unfold cleanName
  split
  next => exact ⟨by decide, List.all_eq_true.mp rfl⟩
  next hne =>
    constructor
    · intro hempty
      rw [← String.toList_inj, String.toList_ofList, String.toList_empty,
        List.map_eq_nil_iff] at hempty
      exact hne (by simpa using hempty)
    · intro c hc
      rw [String.toList_ofList] at hc
      obtain ⟨own, _, rfl⟩ := List.mem_map.mp hc
      split
      next hown => exact hown
      next => decide

/-- Such a name is clean as it is. -/
theorem FitForCode.cleanName_eq {name : String} (h : FitForCode name) : cleanName name = name := by
  have hsame : (name.toList.map fun c => if isNameChar c then c else '_') = name.toList := by
    refine (List.map_congr_left fun c hc => ?_).trans (List.map_id _)
    exact if_pos (h.2 c hc)
  rw [cleanName, if_neg (by simpa using h.1), hsame, String.ofList_toList]

theorem fitForCode_nameStem {name : String} (h : FitForCode name) : FitForCode (nameStem name) := by
  unfold nameStem
  simp only
  split
  next => exact h
  next hne =>
    constructor
    · intro hempty
      rw [← String.toList_inj, String.toList_ofList, String.toList_empty] at hempty
      exact hne (by rw [hempty]; rfl)
    · intro c hc
      rw [String.toList_ofList, List.mem_reverse] at hc
      have hmem := (List.dropWhile_sublist _).subset hc
      exact h.2 c (List.mem_reverse.mp hmem)

/-- A number after a name leaves it fit for code. -/
theorem FitForCode.numbered {stem : String} (h : FitForCode stem) (n : Nat) :
    FitForCode (stem ++ toString n) := by
  constructor
  · intro hempty
    rw [← String.toList_inj, String.toList_append, String.toList_empty,
      List.append_eq_nil_iff] at hempty
    exact h.1 (String.toList_inj.mp hempty.1)
  · intro c hc
    rw [String.toList_append, List.mem_append] at hc
    rcases hc with hc | hc
    · exact h.2 c hc
    · rw [Nat.toString_eq_ofList_toDigits, String.toList_ofList] at hc
      have hdigit := Nat.isDigit_of_mem_toDigits (by decide) (by decide) hc
      simp [isNameChar, Char.isAlphanum, hdigit]

/-! ## §2. The search for a number -/

theorem Graph.hasName_iff {name : String} :
    g.hasName name = true ↔ name ∈ g.nodes.map (·.name) := by
  simp [Graph.hasName]

/-- Of the names with one stem and one more number than there are nodes, one is free. -/
theorem Graph.exists_number (g : Graph) (stem : String) :
    ∃ n ∈ List.range (g.nodes.length + 1), g.hasName (stem ++ toString (n + 1)) = false := by
  by_contra hnone
  have htaken : ∀ n ∈ List.range (g.nodes.length + 1),
      g.hasName (stem ++ toString (n + 1)) = true := by
    intro n hn
    by_contra hfree
    exact hnone ⟨n, hn, by simpa using hfree⟩
  have hdistinct :
      ((List.range (g.nodes.length + 1)).map fun n => stem ++ toString (n + 1)).Nodup := by
    refine List.Nodup.map (fun m n heq => ?_) List.nodup_range
    have hdigits : Nat.toDigits 10 (m + 1) = Nat.toDigits 10 (n + 1) := by
      have htext := (String.append_right_inj stem).mp heq
      rw [Nat.toString_eq_ofList_toDigits, Nat.toString_eq_ofList_toDigits] at htext
      exact String.ofList_inj.mp htext
    simpa using congrArg (Nat.ofDigitChars 10 · 0) hdigits
  have hsub : ((List.range (g.nodes.length + 1)).map fun n => stem ++ toString (n + 1)) ⊆
      g.nodes.map (·.name) := by
    intro name hname
    obtain ⟨n, hn, rfl⟩ := List.mem_map.mp hname
    exact Graph.hasName_iff.mp (htaken n hn)
  have hlength := hdistinct.length_le_of_subset hsub
  rw [List.length_map, List.length_map, List.length_range] at hlength
  omega

/-- The name that a node gets who asks for `requested`: one that no node has.  It is the
    requested one made fit for code, or if that is taken its stem with a number, all numbers
    before which are taken. -/
def Graph.FreeFor (g : Graph) (requested name : String) : Prop :=
  g.hasName name = false ∧
    (name = cleanName requested ∨
      g.hasName (cleanName requested) = true ∧
        ∃ n, 0 < n ∧ name = nameStem (cleanName requested) ++ toString n ∧
          ∀ m, 0 < m → m < n →
            g.hasName (nameStem (cleanName requested) ++ toString m) = true)

/-- **The search for a name finds one**, in every network. -/
theorem Graph.freeFor_freeName (g : Graph) (requested : String) :
    g.FreeFor requested (g.freeName requested) := by
  unfold Graph.freeName
  simp only
  split
  next htaken =>
    obtain ⟨n, hn, hfree⟩ := g.exists_number (nameStem (cleanName requested))
    cases hfound : (List.range (g.nodes.length + 1)).find? (fun n =>
        !g.hasName (nameStem (cleanName requested) ++ toString (n + 1))) with
    | none =>
      have hall := List.find?_eq_none.mp hfound n hn
      rw [hfree] at hall
      exact absurd rfl hall
    | some first =>
      rw [List.find?_map, Function.comp_def, hfound, Option.map_some, Option.getD_some]
      obtain ⟨hfirst, -, hbefore⟩ := List.find?_range_eq_some.mp hfound
      refine ⟨by simpa using hfirst, .inr ⟨htaken, first + 1, by omega, rfl, ?_⟩⟩
      intro m hpos hm
      obtain ⟨m, rfl⟩ : ∃ k, m = k + 1 := ⟨m - 1, by omega⟩
      simpa using hbefore m (by omega)
  next hfree => exact ⟨by simpa using hfree, .inl rfl⟩

/-- The name that a node gets is fit for code. -/
theorem Graph.fitForCode_freeName (g : Graph) (requested : String) :
    FitForCode (g.freeName requested) := by
  have hclean := fitForCode_cleanName requested
  rcases (g.freeFor_freeName requested).2 with hname | ⟨_, n, _, hname, _⟩
  · rw [hname]
    exact hclean
  · rw [hname]
    exact (fitForCode_nameStem hclean).numbered n

/-- No node has the name that a new node gets. -/
theorem Graph.freeName_not_mem (g : Graph) (requested : String) :
    g.freeName requested ∉ g.nodes.map (·.name) := by
  rw [← Graph.hasName_iff, (g.freeFor_freeName requested).1]
  decide

/-- A third node that asks for a name gets the second number. -/
example : (((Graph.empty "g").add ⟨1⟩ "a b" .globals).add ⟨2⟩ "a_b" .globals).freeName "a b" =
    "a_b2" := by
  decide +kernel

end ShaderFlow
