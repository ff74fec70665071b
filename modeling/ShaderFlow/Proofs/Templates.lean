/-
  ShaderFlow.Proofs.Templates — templates that take whatever a pass collects.

  Code is put in the place of marker lines.  What goes in the place of one marker leaves the
  other one standing, so a template with both of them takes every stage, and the standard
  templates have both.  With them a graph compiles as soon as its pass succeeds.

  Main definitions:
    * `Template.Offers`   — a template with a line for a marker;
    * `Template.inserted` — the lines that texts become there.

  Main statements:
    * `Template.exists_insert`    — inserting at one marker keeps the others;
    * `Progress.exists_render`    — a template with both markers takes every stage;
    * `Backend.compile_material`, `Backend.compile_particles`, `Backend.compile_points` — with
      the standard templates a pass is all that can fail.
-/

import ShaderFlow.Program
import ShaderFlow.Proofs.Lines

namespace ShaderFlow

/-! ## §1. Markers -/

namespace Template

/-- A template with a line for a marker. -/
def Offers (source : String) (marker : Marker) : Prop :=
  ∃ line ∈ Text.lines source, Text.trim line = marker.text

variable {source : String} {marker : Marker} {ls : List String} {line : String}

theorem offers_unlines (h : line ∈ ls) (hplain : '\n' ∉ line.toList)
    (hmarker : Text.trim line = marker.text) : Offers (Text.unlines ls) marker :=
  ⟨_, Text.mem_lines_unlines h hplain, (Text.trim_reread line).trans hmarker⟩

/-- A marker that is joined with other lines is offered. -/
theorem offers_of_mem (h : line ∈ Text.lines source) (hmem : line ∈ ls)
    (hmarker : Text.trim line = marker.text) : Offers (Text.unlines ls) marker :=
  offers_unlines hmem (Text.not_mem_of_mem_lines h) hmarker

theorem text_injective {marker other : Marker} (h : marker.text = other.text) : marker = other := by
  cases marker <;> cases other <;> first | rfl | exact absurd h (by decide)

/-- The lines that texts become in the place of a line. -/
def inserted (line : String) (texts : List String) : List String :=
  (texts.flatMap Text.lines).map (indentLine (Text.indentOf line))

/-- If there are lines of a kind there is a first one. -/
theorem exists_first {name : String} (h : ∃ line ∈ ls, Text.trim line = name) :
    ∃ before line after, ls = before ++ line :: after ∧
      (∀ other ∈ before, Text.trim other ≠ name) ∧ Text.trim line = name := by
  obtain ⟨line, hline⟩ : ∃ line, ls.find? (Text.trim · == name) = some line := by
    rw [← Option.isSome_iff_exists, List.find?_isSome]
    simpa using h
  obtain ⟨hname, before, after, hsplit, hbefore⟩ := List.find?_eq_some_iff_append.mp hline
  exact ⟨before, line, after, hsplit, by simpa using hbefore, by simpa using hname⟩

/-- The first line that is the marker gives way to the texts, and only that one. -/
theorem splice_of_first {name : String} (texts : List String) {before after : List String}
    (hbefore : ∀ other ∈ before, Text.trim other ≠ name) (hline : Text.trim line = name) :
    splice name texts (before ++ line :: after) =
      some (before ++ inserted line texts ++ after) := by
  induction before with
  | nil =>
    rw [List.nil_append, splice, if_pos (by simpa using hline)]
    rfl
  | cons other before ih =>
    have hother := hbefore other List.mem_cons_self
    rw [List.cons_append, splice, if_neg (by simpa using hother),
      ih fun l hl => hbefore l (List.mem_cons_of_mem _ hl)]
    rfl

/-- **Inserting at one marker keeps the other ones.** -/
theorem exists_insert (stage : Stage) (texts : List String) (h : Offers source marker) :
    ∃ text, insert stage marker texts source = .ok text ∧
      ∀ other, other ≠ marker → Offers source other → Offers text other := by
  obtain ⟨before, line, after, hlines, hbefore, hmarker⟩ := exists_first h
  unfold insert
  rw [hlines, splice_of_first texts hbefore hmarker]
  refine ⟨_, rfl, fun other hother hoffers => ?_⟩
  obtain ⟨kept, hkept, hname⟩ := hoffers
  refine offers_of_mem hkept ?_ hname
  rw [hlines] at hkept
  rcases List.mem_append.mp hkept with hmem | hmem
  · exact List.mem_append_left _ (List.mem_append_left _ hmem)
  · rcases List.mem_cons.mp hmem with rfl | hmem
    · exact absurd (text_injective (hname.symm.trans hmarker)) hother
    · exact List.mem_append_right _ hmem

end Template

/-- **A template with both markers takes every stage.** -/
theorem Progress.exists_render {template : String}
    (hdefinitions : Template.Offers template .definitions)
    (hbody : Template.Offers template .body) (p : Progress) (stage : Stage)
    (epilogue : List String) : ∃ text, p.render template stage epilogue = .ok text := by
  obtain ⟨source, hsource, hkeeps⟩ :=
    Template.exists_insert stage (p.listing.definitionLines stage) hdefinitions
  obtain ⟨text, htext, -⟩ := Template.exists_insert stage (p.bodyTexts stage epilogue)
    (hkeeps .body (by decide) hbody)
  exact ⟨text, bind_eq_ok.mpr ⟨source, hsource, htext⟩⟩

/-! ## §2. The standard templates -/

/-- The markers stand in the standard templates alone or behind a tab. -/
theorem trim_marker (marker : Marker) :
    Text.trim marker.text = marker.text ∧ Text.trim ("\t" ++ marker.text) = marker.text ∧
      '\n' ∉ marker.text.toList ∧ '\n' ∉ ("\t" ++ marker.text).toList := by
  cases marker <;> decide +kernel

namespace Template

variable {ls : List String} {marker : Marker}

theorem offers_of_marker (h : marker.text ∈ ls) : Offers (Text.unlines ls) marker :=
  offers_unlines h (trim_marker marker).2.2.1 (trim_marker marker).1

theorem offers_of_tab (h : "\t" ++ marker.text ∈ ls) : Offers (Text.unlines ls) marker :=
  offers_unlines h (trim_marker marker).2.2.2 (trim_marker marker).2.1

end Template

theorem Particles.offers_template (table : Allocations) (stage : Stage) (marker : Marker) :
    Template.Offers (Particles.template table stage) marker := by
  cases marker with
  | definitions => exact Template.offers_of_marker List.mem_cons_self
  | body => exact Template.offers_of_tab (by simp [Marker.text])

theorem Material.offers_template {config : Config} (h : config.material = {}) (stage : Stage)
    (marker : Marker) : Template.Offers (Material.template config stage) marker := by
  have hvertex : Template.Offers vertexTemplate marker := by
    cases marker with
    | definitions => exact Template.offers_of_marker List.mem_cons_self
    | body => exact Template.offers_of_tab (by simp [Marker.text])
  have hfragment : Template.Offers fragmentTemplate marker := by
    cases marker with
    | definitions => exact Template.offers_of_marker List.mem_cons_self
    | body => exact Template.offers_of_tab (by simp [Marker.text])
  unfold template
  rw [h]
  split
  · exact hvertex
  · exact hfragment

theorem Points.offers_template (config : Config) :
    Template.Offers (Points.template config) .body := by
  have htext : (Points.template config).toList =
      ("void " ++ config.points.functionName ++ "(inout Point " ++ config.points.pointVariable ++
        ") \x7b").toList ++ '\n' :: (("\t" ++ Marker.body.text).toList ++ '\n' :: "\x7d\n".toList) := by
    have htail : ") \x7b\n\t// INSERT BODY\n\x7d\n" =
        ") \x7b" ++ ("\n" ++ (("\t" ++ Marker.body.text) ++ ("\n" ++ "\x7d\n"))) := by decide
    simp only [Points.template]
    rw [htail]
    simp only [String.toList_append, List.append_assoc]
    rfl
  obtain ⟨-, htrim, -, hplain⟩ := trim_marker .body
  refine ⟨Text.reread ("\t" ++ Marker.body.text), ?_, (Text.trim_reread _).trans htrim⟩
  rw [Text.lines, htext, Text.linesFrom_append, Text.linesFrom_of_not_mem _ _ _ hplain]
  refine List.mem_map_of_mem (List.mem_append_right _ List.mem_cons_self)

/-! ## §3. Programs from passes -/

variable {g : Graph} {context : Context} {p : Progress}

theorem MaterialProgram.exists_assemble {config : Config} (h : config.material = {})
    (p : Progress) : ∃ program, assemble p config = .ok program ∧
      program.params = p.needs.params := by
  obtain ⟨vertex, hvertex⟩ := p.exists_render (Material.offers_template h .vertex .definitions)
    (Material.offers_template h .vertex .body) .vertex [Material.vertexEpilogue]
  obtain ⟨fragment, hfragment⟩ := p.exists_render
    (Material.offers_template h .fragment .definitions)
    (Material.offers_template h .fragment .body) .fragment [Material.fragmentEpilogue]
  exact ⟨_, bind_eq_ok.mpr ⟨vertex, hvertex, bind_eq_ok.mpr ⟨fragment, hfragment, rfl⟩⟩, rfl⟩

theorem ParticlesProgram.exists_assemble (p : Progress) (table : Allocations) :
    ∃ program, assemble p table = .ok program ∧ program.allocations = table ∧
      program.params = p.needs.params := by
  have hshaders : ∀ indices : List Nat, ∃ shaders,
      indices.mapM (SimulationShader.assemble p table) = .ok shaders := by
    intro indices
    induction indices with
    | nil => exact ⟨[], rfl⟩
    | cons index indices ih =>
      obtain ⟨shaders, hshaders⟩ := ih
      obtain ⟨source, hsource⟩ := p.exists_render
        (Particles.offers_template table (.simulation index) .definitions)
        (Particles.offers_template table (.simulation index) .body) (.simulation index) []
      refine ⟨{ index, texture := table.textureName index, source } :: shaders, ?_⟩
      rw [List.mapM_cons]
      exact bind_eq_ok.mpr ⟨_, bind_eq_ok.mpr ⟨source, hsource, rfl⟩,
        bind_eq_ok.mpr ⟨shaders, hshaders, rfl⟩⟩
  obtain ⟨shaders, hshaders⟩ := hshaders ((Particles.stages table).filterMap Stage.texture?)
  exact ⟨_, bind_eq_ok.mpr ⟨shaders, hshaders, rfl⟩, rfl, rfl⟩

/-- What a point builder tells its host comes from its pass. -/
theorem PointProgram.of_assemble {config : Config} {m : PointProgram}
    (h : assemble p config = .ok m) :
    m.params = p.needs.params ∧ m.timeDependent = p.needs.timeDependent ∧
      m.reads = p.needs.reads ∧ m.writes = p.needs.writes ∧
      m.freeVariables = (p.listing.definitionsOf .point).filterMap freeVariable? := by
  obtain ⟨function, -, h⟩ := bind_eq_ok.mp h
  rw [pure_eq_ok] at h
  subst h
  exact ⟨rfl, rfl, rfl, rfl, rfl⟩

theorem PointProgram.exists_assemble (p : Progress) (config : Config) :
    ∃ program, assemble p config = .ok program ∧ program.params = p.needs.params := by
  obtain ⟨function, hfunction, -⟩ := Template.exists_insert .point (p.bodyTexts .point [])
    (Points.offers_template config)
  exact ⟨_, bind_eq_ok.mpr ⟨function, hfunction, rfl⟩, rfl⟩

namespace Backend

/-- **With the standard templates a material compiles if its pass succeeds.** -/
theorem compile_material (h : context.config.material = {})
    (hp : Backend.material.pass g context = .ok p) :
    ∃ program, Backend.material.compile g context = (.material, .ok (.material program)) ∧
      program.params = p.needs.params := by
  obtain ⟨program, hprogram, hparams⟩ := MaterialProgram.exists_assemble h p
  refine ⟨program, Prod.ext rfl ?_, hparams⟩
  exact bind_eq_ok.mpr ⟨p, hp, bind_eq_ok.mpr ⟨program, hprogram, rfl⟩⟩

/-- A particle simulation compiles if its attributes have places and its pass succeeds. -/
theorem compile_particles {table table' : Allocations}
    (htable : Particles.allocate table g context = .ok table')
    (hp : (Backend.particles table').pass g context = .ok p) :
    ∃ program, (Backend.particles table).compile g context =
        (.particles table', .ok (.particles program)) ∧
      program.allocations = table' ∧ program.params = p.needs.params := by
  obtain ⟨program, hprogram, hallocations, hparams⟩ := ParticlesProgram.exists_assemble p table'
  refine ⟨program, ?_, hallocations, hparams⟩
  unfold Backend.compile
  simp only [htable]
  refine Prod.ext rfl ?_
  exact bind_eq_ok.mpr ⟨p, hp, bind_eq_ok.mpr ⟨program, hprogram, rfl⟩⟩

/-- A particle simulation that compiled is assembled from a pass, once its attributes had
    places. -/
theorem particles_of_compile {table : Allocations} {left : Backend} {program : Program}
    (h : (Backend.particles table).compile g context = (left, .ok program)) :
    ∃ table' p kept, left = .particles table' ∧ program = .particles kept ∧
      Particles.allocate table g context = .ok table' ∧
      (Backend.particles table').pass g context = .ok p ∧
      ParticlesProgram.assemble p table' = .ok kept := by
  unfold Backend.compile at h
  cases htable : Particles.allocate table g context with
  | error e => simp [htable] at h
  | ok table' =>
    simp only [htable, Prod.mk.injEq] at h
    obtain ⟨rfl, h⟩ := h
    obtain ⟨p, hp, h⟩ := bind_eq_ok.mp h
    obtain ⟨kept, hkept, h⟩ := bind_eq_ok.mp h
    rw [pure_eq_ok] at h
    exact ⟨table', p, kept, rfl, h.symm, rfl, hp, hkept⟩

/-- A point builder that compiled is assembled from a pass. -/
theorem points_of_compile {left : Backend} {program : Program}
    (h : Backend.points.compile g context = (left, .ok program)) :
    ∃ p m, left = .points ∧ program = .points m ∧ Backend.points.pass g context = .ok p ∧
      PointProgram.assemble p context.config = .ok m := by
  obtain ⟨rfl, hcompiled⟩ := Prod.mk.inj h
  obtain ⟨p, hp, hcompiled⟩ := bind_eq_ok.mp hcompiled
  obtain ⟨m, hm, hprogram⟩ := bind_eq_ok.mp hcompiled
  rw [pure_eq_ok] at hprogram
  exact ⟨p, m, rfl, hprogram.symm, hp, hm⟩

/-- A point builder compiles if its pass succeeds. -/
theorem compile_points (hp : Backend.points.pass g context = .ok p) :
    ∃ program, Backend.points.compile g context = (.points, .ok (.points program)) ∧
      program.params = p.needs.params := by
  obtain ⟨program, hprogram, hparams⟩ := PointProgram.exists_assemble p context.config
  refine ⟨program, Prod.ext rfl ?_, hparams⟩
  exact bind_eq_ok.mpr ⟨p, hp, bind_eq_ok.mpr ⟨program, hprogram, rfl⟩⟩

end Backend

end ShaderFlow
