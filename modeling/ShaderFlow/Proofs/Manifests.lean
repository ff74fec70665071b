/-
  ShaderFlow.Proofs.Manifests — manifests are read back.

  A manifest nests six levels deep and its numbers are integers and the shortest digits of
  floats, so what is read of its text is the manifest.

  Main statements:
    * `Program.fits_manifest`   — the levels of a manifest;
    * `Bundle.ofText?_manifest` — manifests are read back.
-/

import ShaderFlow.Delivery.Bundle
import ShaderFlow.Proofs.JsonTexts

namespace ShaderFlow

open Json

variable {levels : Nat}

/-! ## §1. Plain values -/

namespace Json.Fits

theorem int (n : Int) : Fits levels (Json.int n) := .number ⟨fun _ => rfl, fun _ => le_refl 0⟩

theorem nat (n : Nat) : Fits levels (Json.nat n) := int n

/-- Finite floats have plain numbers: only zero has no digits, and it has no power of ten. -/
theorem float (x : Binary32) : Fits levels (Json.float x) := by
  rw [Json.float]
  split
  next hfinite =>
    refine .number ⟨by rintro ⟨⟩, fun hdigits => ?_⟩
    cases hzero : x.isZero with
    | true =>
      show (x.shortest _).exponent ≤ 0
      rw [Binary32.shortest, if_pos hzero]
    | false => exact absurd hdigits (Binary32.digits_shortest_ne_zero hfinite hzero _)
  next => exact .null

/-- A list whose items fit one by one. -/
theorem list {α : Type} {json : α → Json} (h : ∀ a, Fits levels (json a)) (items : List α) :
    Fits (levels + 1) (.array (items.map json)) := by
  refine .array fun j hj => ?_
  obtain ⟨a, -, rfl⟩ := List.mem_map.mp hj
  exact h a

/-- A table whose entries fit one by one. -/
theorem table {α : Type} {json : α → Json} (h : ∀ a, Fits levels (json a))
    (entries : Table String α) :
    Fits (levels + 1) (.object (entries.map fun e => (e.1, json e.2))) := by
  refine .object fun m hm => ?_
  obtain ⟨e, -, rfl⟩ := List.mem_map.mp hm
  exact h e.2

theorem texts (texts : List String) : Fits (levels + 1) (textsJson texts) := list string texts

end Json.Fits

/-! ## §2. The parts of a manifest -/

theorem PortType.fits_json (type : PortType) : Fits (levels + 2) type.json := by
  cases type with
  | array element length =>
    have hcontent : Fits (levels + 1)
        (.array [.string element.documentName, .nat length.toNat]) :=
      .array (by simp [Fits.string, Fits.nat])
    exact .object (by simpa using hcontent)
  | _ => exact .string _

theorem Value.fits_json (value : Value) : Fits (levels + 2) value.json := by
  refine .object ?_
  rw [List.forall_mem_singleton]
  cases value with
  | bool b => exact .bool b
  | int n => exact .int _
  | float x => exact .float x
  | vector2 x y => exact .array (by simp [Fits.float])
  | vector3 x y z => exact .array (by simp [Fits.float])
  | vector4 x y z w => exact .array (by simp [Fits.float])

theorem ParamBinding.fits_json (b : ParamBinding) : Fits (levels + 3) b.json :=
  .object (by simp [Fits.string, b.type.fits_json, b.default.fits_json])

theorem AttributeAllocation.fits_json (a : AttributeAllocation) : Fits (levels + 3) a.json :=
  .object (by simp [Fits.string, Fits.nat, a.type.fits_json])

theorem StateTexture.fits_json (t : StateTexture) : Fits (levels + 2) t.json :=
  .object (by simp [Fits.string, Fits.nat, Fits.texts])

theorem Allocations.fits_json (t : Allocations) : Fits (levels + 5) t.json := by
  have hattributes : Fits (levels + 4) _ := .table AttributeAllocation.fits_json t.attributes
  have htextures : Fits (levels + 4) _ := .list StateTexture.fits_json t.textures
  exact .object (by simp [Fits.nat, hattributes, htextures])

theorem FreeVariable.fits_json (v : FreeVariable) : Fits (levels + 1) v.json :=
  .object (by simp [Fits.string])

theorem Program.fits_details (p : Program) : ∀ m ∈ p.details, Fits (levels + 5) m.2 := by
  cases p with
  | material p => exact List.forall_mem_singleton.mpr (.bool _)
  | particles p => exact List.forall_mem_singleton.mpr p.allocations.fits_json
  | points p =>
    have hvariables : Fits (levels + 5) _ := .list FreeVariable.fits_json p.freeVariables
    simp [details, hvariables, Fits.texts]

/-! ## §3. Manifests -/

/-- Six levels are enough for every manifest. -/
theorem Program.fits_manifest (p : Program) (graph : String) (files : List String) :
    Fits (levels + 6) (p.manifest graph files) := by
  have hparams : Fits (levels + 5) _ := .table ParamBinding.fits_json p.params
  refine .object (List.forall_mem_append.mpr ⟨?_, p.fits_details⟩)
  simp [Fits.string, Fits.bool, Fits.texts, hparams]

/-- **Manifests are read back.**  What is read of the manifest of a bundle is the manifest of its
    program. -/
theorem Bundle.ofText?_manifest (graph : String) (p : Program) :
    Json.ofText? (Bundle.of graph p).manifest =
      some (p.manifest graph ((p.files (fileStem graph)).map (·.1))).asRead :=
  ofText?_pretty (@Program.fits_manifest 121 p graph _)

end ShaderFlow
