/-
  ShaderFlow.Proofs.Settings — settings are read back.

  Settings are written with all their fields and with the name of every record, and texts with
  their escapes.  Each part is read back from its form, so the whole is; it nests a few levels
  deep, whatever the texts are.

  Main statements:
    * `Config.readBy`       — the form of settings;
    * `Config.ofText_text`  — the text of settings.
-/

import ShaderFlow.Config.Text
import ShaderFlow.Proofs.Numerals

namespace ShaderFlow

open Reader Form

variable {limit : Nat}

theorem Precision.readBy (p : Precision) :
    (Form.word p.documentName).ReadBy limit 2 Precision.reader (· = p) := by
  cases p <;> exact readBy_named (by decide) rfl rfl

theorem Formatting.readBy (f : Formatting) :
    f.form.ReadBy limit (group [0, 2]) Formatting.reader (· = f) := by
  refine (FieldsRead.two (by decide) rfl (by decide) rfl rfl (fun _ => rfl)
    (readBy_text f.indent) f.precision.readBy).record rfl (by decide) (.inr rfl) ?_
  rintro _ ⟨_, _, rfl, rfl, rfl⟩
  exact ⟨f, rfl, Moves.pure f⟩

theorem MaterialOptions.readBy (m : MaterialOptions) :
    m.form.ReadBy limit
      (group [optionalLevels m.vertexTemplate, optionalLevels m.fragmentTemplate])
      MaterialOptions.reader (· = m) := by
  refine (FieldsRead.two (by decide) rfl (by decide) rfl rfl (fun _ => rfl)
    (readBy_optionalText m.vertexTemplate) (readBy_optionalText m.fragmentTemplate)).record rfl
    (by decide) (.inr rfl) ?_
  rintro _ ⟨_, _, rfl, rfl, rfl⟩
  exact ⟨m, rfl, Moves.pure m⟩

theorem ParticlesOptions.readBy (p : ParticlesOptions) :
    p.form.ReadBy limit (group [0, 0]) ParticlesOptions.reader (· = p) := by
  have hchannels : (Form.int p.channelsPerTexture.toNat).ReadBy limit 0
      ParticlesOptions.channelsReader (· = p.channelsPerTexture) := by
    refine (readBy_byte p.channelsPerTexture).bind_moves ?_
    rintro _ rfl
    exact ⟨_, UInt8.ofNat_toNat, Moves.pure _⟩
  refine (FieldsRead.two (by decide) rfl (by decide) rfl rfl (fun _ => rfl) hchannels
    (readBy_text p.texturePrefix)).record rfl (by decide) (.inr rfl) ?_
  rintro _ ⟨_, _, rfl, rfl, rfl⟩
  exact ⟨p, rfl, Moves.pure p⟩

theorem PointOptions.readBy (p : PointOptions) :
    p.form.ReadBy limit (group [0, 0]) PointOptions.reader (· = p) := by
  refine (FieldsRead.two (by decide) rfl (by decide) rfl rfl (fun _ => rfl)
    (readBy_text p.functionName) (readBy_text p.pointVariable)).record rfl (by decide) (.inr rfl)
    ?_
  rintro _ ⟨_, _, rfl, rfl, rfl⟩
  exact ⟨p, rfl, Moves.pure p⟩

namespace Config

/-- How deep settings nest. -/
def levels (c : Config) : Nat :=
  group [group [0, 2],
    group [optionalLevels c.material.vertexTemplate, optionalLevels c.material.fragmentTemplate],
    group [0, 0], group [0, 0]]

theorem readBy (c : Config) : c.form.ReadBy limit c.levels Config.reader (· = c) := by
  refine FieldsRead.record (Q := (· = {}))
    (.slot (by decide) rfl ?_ c.formatting.readBy
      (.slot (by decide) rfl ?_ c.material.readBy
        (.slot (by decide) rfl ?_ c.particles.readBy
          (.slot (by decide) rfl ?_ c.points.readBy .nil)))) rfl (by decide) (.inr rfl) ?_
  -- before each section is read its slot is empty, whatever the sections before it have left
  · rintro _ rfl
    rfl
  · rintro _ ⟨_, _, rfl, rfl, rfl⟩
    rfl
  · rintro _ ⟨_, _, ⟨_, _, rfl, rfl, rfl⟩, rfl, rfl⟩
    rfl
  · rintro _ ⟨_, _, ⟨_, _, ⟨_, _, rfl, rfl, rfl⟩, rfl, rfl⟩, rfl, rfl⟩
    rfl
  · rintro _ ⟨_, _, ⟨_, _, ⟨_, _, ⟨_, _, rfl, rfl, rfl⟩, rfl, rfl⟩, rfl, rfl⟩, rfl, rfl⟩
    exact ⟨c, rfl, Moves.pure c⟩

/-- Settings never nest too deeply. -/
theorem levels_le (c : Config) : c.levels ≤ nestingLimit := by
  have htemplate : ∀ o : Option String, optionalLevels o = 0 ∨ optionalLevels o = 1 := by
    rintro (_ | s)
    · exact .inl rfl
    · exact .inr rfl
  rw [levels]
  rcases htemplate c.material.vertexTemplate with h | h <;>
    rcases htemplate c.material.fragmentTemplate with h' | h' <;> rw [h, h'] <;> decide

/-- **Settings are read back.**  The text of settings holds these settings, whatever the texts in
    them are. -/
theorem ofText_text (c : Config) : Config.ofText c.text = .ok c := by
  obtain ⟨_, rest, rfl, hread⟩ := (c.readBy.readAll (by
    show some 'C' ≠ some '#'
    decide) {}).1 c.levels_le
  rw [ofText, text, hread]
  rfl

end Config

end ShaderFlow
