/-
  ShaderFlow.Proofs.Documents — documents are read back.

  Each part of a document is read back from its form, one reader for each form.  The network of a
  subnet is loaded as soon as it has been read; if it was loaded before, it loads again and says
  the same, so a document comes back as it was, with other identities inside.  But the reader
  has room for so many levels only: where subnets nest more deeply, a text that was written is
  refused.

  Main definitions:
    * `Document.levels`  — how many levels of the reader a document takes;
    * `Document.Agrees`  — documents with the same names and wires whose kinds agree.

  Main statements:
    * `Kind.readBy`, `Document.readBy`, `Graph.readBy` — one for each level of a document;
    * `Graph.keepsPace` — levels of the reader and levels of subnets;
    * `Document.text_read_back` — which texts are read back, and to what.
-/

import ShaderFlow.Document.Text
import ShaderFlow.Graph.Content
import ShaderFlow.Proofs.Numerals
import ShaderFlow.Proofs.Saving

namespace ShaderFlow

open Reader Form

variable {limit : Nat}

/-! ## §1. Port types and values -/

/-- Items that are read back one by one make up the list. -/
theorem eq_of_forall₂ {α : Type} {xs ys : List α} (h : List.Forall₂ (fun x y => y = x) xs ys) :
    ys = xs := by
  have hflip := h.flip
  rwa [List.forall₂_eq_eq_eq] at hflip

theorem ElementType.readBy (e : ElementType) :
    (Form.word e.documentName).ReadBy limit 2 ElementType.reader (· = e) := by
  cases e <;> exact readBy_named (by decide) rfl rfl

namespace PortType

/-- How deep a port type nests. -/
def levels : PortType → Nat
  | .array .. => group [2, 0] + 1
  | _ => 2

theorem readBy_length (n : UInt16) :
    (Form.int n.toNat).ReadBy limit 0 lengthReader (· = n) := by
  have hint := @readBy_int limit (.unsigned 16) n.toNat (by
    show -((0 : Nat) : Int) ≤ _
    omega) (by
    have hlt := n.toNat_lt
    show (n.toNat : Int) ≤ ((65535 : Nat) : Int)
    omega)
  refine hint.bind_moves ?_
  rintro _ rfl
  exact ⟨_, UInt16.ofNat_toNat, Moves.pure _⟩

theorem readBy (type : PortType) :
    type.form.ReadBy limit type.levels PortType.reader (· = type) := by
  cases type with
  | array element length =>
    have hkey : isPlainName "Array" = true := by decide
    have hpair := reads_pair element.readBy (@readBy_length limit length)
    have hrender : ∀ depth after, (form (.array element length)).render depth ++ after =
        "Array".toList ++ '(' :: (renderParts depth
          [.word element.documentName, .int length.toNat] ++ ')' :: after) := by
      intro depth after
      rw [form, render]
      simp [documentName]
    refine ⟨fun depth => ?_, fun depth after _ => ?_⟩
    · have hopens := opens_name hkey ('(' :: (renderParts depth
        [.word element.documentName, .int length.toNat] ++ ')' :: []))
      rwa [← hrender, List.append_nil] at hopens
    · rw [hrender, reader]
      show Reads limit (max 1 (group [2, 0]) + 1) _ _ _ _
      refine reads_variant hkey (isDelimiter_of_mem_head? rfl _) ?_
      refine (Moves.skipBlank (skip_cons rfl (by decide) _)).reads ?_
      refine (hpair depth after).bind_moves ?_
      rintro ⟨_, _⟩ ⟨rfl, rfl⟩
      exact ⟨_, rfl, Moves.pure _ _⟩
  -- the types without parameters are bare names
  | _ => exact readBy_word (by decide) (fun text => Moves.pure _ text) rfl

end PortType

namespace Value

/-- How deep a value nests. -/
def levels : Value → Nat
  | .bool _ | .int _ | .float _ => 2
  | .vector2 .. => group [0, 0] + 2
  | .vector3 .. => group [0, 0, 0] + 2
  | .vector4 .. => group [0, 0, 0, 0] + 2

/-- The floats of a value. -/
def floats : Value → List Binary32
  | .bool _ | .int _ => []
  | .float x => [x]
  | .vector2 x y => [x, y]
  | .vector3 x y z => [x, y, z]
  | .vector4 x y z w => [x, y, z, w]

/-- Whether no float of a value is a value that is no number. -/
def Numeric (v : Value) : Prop := ∀ x ∈ v.floats, x.isNaN = false

theorem readBy_int32 (n : Int32) :
    (Form.int n.toInt).ReadBy limit 0 (integer (.signed 32)) (· = n.toInt) :=
  readBy_int (.signed 32) n.le_toInt (Int.le_of_lt_add_one n.toInt_lt)

/-- A vector is read back from its components. -/
theorem readBy_vector {v : Value} {key : String} {x : Binary32} {xs : List Binary32}
    {make : List Binary32 → Option Value} (hkey : isPlainName key = true)
    (hxs : ∀ y ∈ x :: xs, y.isNaN = false) (hmake : make (x :: xs) = some v)
    {f : String → Reader Value} (hf : f key = vectorReader (xs.length + 1) make) :
    (Form.variant key (.tuple "" ((x :: xs).map Form.float))).ReadBy limit
      (group ((x :: xs).map fun _ => 0) + 2) (Reader.variant f) (· = v) := by
  refine readBy_variant hkey fun depth after => ?_
  rw [hf]
  have htuple : (Form.tuple "" ((x :: xs).map Form.float)).ReadBy limit
      (group ((x :: xs).map fun _ => 0)) (Reader.tuple false (xs.length + 1) Reader.float)
      (List.Forall₂ (fun y a => a = y) (x :: xs)) :=
    ReadBy.tuple fun y hy => readBy_float (hxs y hy)
  refine ReadBy.payload (htuple.bind_moves (Q := (· = v)) fun ys hys => ?_) depth after
  refine ⟨v, rfl, fun text => ?_⟩
  -- the components are the floats of the vector, in order
  rw [eq_of_forall₂ hys]
  simp only [hmake]
  exact Moves.pure v text

theorem readBy {v : Value} (h : v.Numeric) : v.form.ReadBy limit v.levels Value.reader (· = v) := by
  cases v with
  | bool b =>
    refine (readBy_bool b).variant (by decide)
      (show _ = (do return Value.bool (← Reader.payload fun _ => Reader.bool)) from rfl) ?_
    rintro _ rfl
    rfl
  | int n =>
    refine (readBy_int32 n).variant (by decide)
      (show _ = (do return Value.int (Int32.ofInt (← Reader.payload fun _ =>
        Reader.integer (.signed 32)))) from rfl) ?_
    rintro _ rfl
    rw [Int32.ofInt_toInt]
  | float x =>
    refine (readBy_float (h x (List.mem_singleton_self x))).variant (by decide)
      (show _ = (do return Value.float (← Reader.payload fun _ => Reader.float)) from rfl) ?_
    rintro _ rfl
    rfl
  | vector2 x y => exact readBy_vector (by decide) h rfl rfl
  | vector3 x y z => exact readBy_vector (by decide) h rfl rfl
  | vector4 x y z w => exact readBy_vector (by decide) h rfl rfl

end Value

/-! ## §2. Specifications, blocks and wires -/

theorem readBy_nameAndType {recordType : String} (hrecord : isPlainName recordType = true)
    (name : String) (type : PortType) :
    (nameAndTypeForm name type).ReadBy limit (group [0, type.levels])
      (PortSlots.nameAndType recordType false) (· = (name, type)) := by
  refine (FieldsRead.two (by decide) rfl (by decide) rfl rfl (fun _ => rfl) (readBy_text name)
    type.readBy).record rfl hrecord (.inl rfl) ?_
  rintro _ ⟨_, _, rfl, rfl, rfl⟩
  exact ⟨_, rfl, Moves.pure _⟩

/-- How deep a specification nests. -/
def PortSpec.levels (spec : PortSpec) : Nat := group [0, spec.type.levels]

theorem PortSpec.readBy (spec : PortSpec) :
    spec.form.ReadBy limit spec.levels PortSpec.reader (· = spec) := by
  refine (readBy_nameAndType (by decide) spec.name spec.type).bind_moves ?_
  rintro _ rfl
  exact ⟨spec, rfl, Moves.pure spec⟩

theorem readBy_portSpecs (specs : List PortSpec) :
    (portSpecsForm specs).ReadBy limit (group (specs.map PortSpec.levels)) portSpecsReader
      (· = specs) :=
  (ReadBy.list fun spec _ => spec.readBy).imp fun _ => eq_of_forall₂

theorem MathOp.readBy (op : MathOp) :
    (Form.word op.documentName).ReadBy limit 2 MathOp.reader (· = op) := by
  cases op <;> exact readBy_named (by decide) rfl rfl

theorem Target.readBy (target : Target) :
    (Form.word target.documentName).ReadBy limit 2 Target.reader (· = target) := by
  cases target <;> exact readBy_named (by decide) rfl rfl

namespace Block

/-- How deep a block nests. -/
def levels : Block → Nat
  | .always => 2
  | .conditional _ => max 1 (group [0]) + 1

theorem readBy (b : Block) : b.form.ReadBy limit b.levels Block.reader (· = b) := by
  cases b with
  | always => exact readBy_word (by decide) (Moves.pure _) rfl
  | conditional condition =>
    -- this block is written as a record and read as a variant, without a level for its payload
    have hkey : isPlainName "Conditional" = true := by decide
    have hfields : FieldsRead
        [Reader.Field.slot "condition" id (fun _ a => some a) Reader.text] limit
        [("condition", .text condition)] [0] (· = none) (· = some condition) := by
      refine .cons (by decide) rfl ?_ ?_ .nil
      · rintro _ rfl
        rfl
      · rintro _ rfl
        refine (readBy_text condition).bind_moves ?_
        rintro _ rfl
        exact ⟨_, rfl, Moves.pure _⟩
    have hrender : ∀ depth after, (form (.conditional condition)).render depth ++ after =
        "Conditional".toList ++ '(' :: '\n' ::
          (renderFields depth [("condition", .text condition)] ++
            (margin depth ++ ')' :: after)) := by
      intro depth after
      rw [form, render]
      simp
    refine ⟨fun depth => ?_, fun depth after _ => ?_⟩
    · have hopens := opens_name hkey ('(' :: '\n' ::
        (renderFields depth [("condition", .text condition)] ++ (margin depth ++ ')' :: [])))
      rwa [← hrender, List.append_nil] at hopens
    · rw [hrender, reader]
      refine reads_variant hkey (isDelimiter_of_mem_head? rfl _) ?_
      refine (Moves.skipBlank (skip_cons rfl (by decide) _)).reads ((Moves.rest _).reads ?_)
      refine ((hfields.reads_enclosed depth after rfl
        (Nat.succ_lt_succ (Nat.succ_pos _))).mono (Nat.le_add_right limit 2)).bind_moves ?_
      rintro _ rfl
      exact ⟨_, rfl, Moves.pure _ _⟩

end Block

theorem Wire.readBy (w : Wire) : w.form.ReadBy limit (group [0, 0]) Wire.reader (· = w) := by
  refine (FieldsRead.two (by decide) rfl (by decide) rfl rfl (fun _ => rfl) (readBy_text w.source)
    (readBy_text w.target)).record rfl (by decide) (.inl rfl) ?_
  rintro _ ⟨_, _, rfl, rfl, rfl⟩
  exact ⟨w, rfl, Moves.pure w⟩

/-! ## §3. Kinds -/

/-- How deep a document nests, from how deep its nodes do. -/
def documentLevels (nodes : List Nat) (wires : List Wire) : Nat :=
  group [0, group nodes, group (wires.map fun _ => group [0, 0])]

mutual

/-- How deep a kind nests. -/
def Kind.levels : Kind → Nat
  | .constant value => value.levels + 2
  | .param _ type value => group [0, type.levels, value.levels] + 2
  | .math _ type => group [2, type.levels] + 2
  | .globals => 2
  | .attribute _ type | .varyingWrite _ type | .varyingRead _ type => group [0, type.levels] + 2
  | .function _ inputs result =>
    group [0, group (inputs.map PortSpec.levels), result.levels] + 2
  | .output _ => 2 + 2
  | .subnet { inputs, outputs, block, network } =>
    group [group (inputs.map PortSpec.levels), group (outputs.map PortSpec.levels), block.levels,
      network.levels] + 2
  | .subnetInput ports | .subnetOutput ports => group (ports.map PortSpec.levels) + 2

/-- How deep a graph nests: as its document does. -/
def Graph.levels : Graph → Nat
  | { name, nodes, connections, version, error } =>
    let g : Graph := { name, nodes, connections, version, error }
    documentLevels (Node.levelsAll nodes) g.toDocument.wires

/-- How deep nodes nest, one by one. -/
def Node.levelsAll : List Node → List Nat
  | [] => []
  | { kind, .. } :: ns => group [0, kind.levels] :: Node.levelsAll ns

end

/-- The value that a kind holds is numeric. -/
def Kind.Numeric : Kind → Prop
  | .constant value | .param _ _ value => value.Numeric
  | _ => True

theorem readBy_param (name : String) (type : PortType) {value : Value} (h : value.Numeric) :
    (Form.record "" [("name", .text name), ("port_type", type.form),
      ("default", value.form)]).ReadBy limit (group [0, type.levels, value.levels])
        (paramReader false) (· = .param name type value) := by
  refine (FieldsRead.three (by decide) rfl (by decide) rfl (by decide) rfl rfl (fun _ => rfl)
    (fun _ _ => rfl) (readBy_text name) type.readBy (Value.readBy h)).record rfl (by decide)
    (.inl rfl) ?_
  rintro _ ⟨_, _, _, rfl, rfl, rfl, rfl⟩
  exact ⟨_, rfl, Moves.pure _⟩

theorem readBy_math (op : MathOp) (type : PortType) :
    (Form.record "" [("op", .word op.documentName), ("port_type", type.form)]).ReadBy limit
      (group [2, type.levels]) (mathReader false) (· = .math op type) := by
  refine (FieldsRead.two (by decide) rfl (by decide) rfl rfl (fun _ => rfl) op.readBy
    type.readBy).record rfl (by decide) (.inl rfl) ?_
  rintro _ ⟨_, _, rfl, rfl, rfl⟩
  exact ⟨_, rfl, Moves.pure _⟩

theorem readBy_call (name : String) (inputs : List PortSpec) (result : PortType) :
    (Form.record "" [("function", .text name), ("inputs", portSpecsForm inputs),
      ("output", result.form)]).ReadBy limit
        (group [0, group (inputs.map PortSpec.levels), result.levels]) (callReader false)
        (· = .function name inputs result) := by
  refine (FieldsRead.three (by decide) rfl (by decide) rfl (by decide) rfl rfl (fun _ => rfl)
    (fun _ _ => rfl) (readBy_text name) (readBy_portSpecs inputs) result.readBy).record rfl
    (by decide) (.inl rfl) ?_
  rintro _ ⟨_, _, _, rfl, rfl, rfl, rfl⟩
  exact ⟨_, rfl, Moves.pure _⟩

/-- A subnet is read back if its network is. -/
theorem readBy_subnet {network : Reader Graph} {s : Subnet}
    (h : s.network.form.ReadBy limit s.network.levels network s.network.Repeats) :
    (Form.record "" [("inputs", portSpecsForm s.inputs), ("outputs", portSpecsForm s.outputs),
      ("block", s.block.form), ("network", s.network.form)]).ReadBy limit
        (group [group (s.inputs.map PortSpec.levels), group (s.outputs.map PortSpec.levels),
          s.block.levels, s.network.levels]) (subnetReader network false)
        (Kind.subnet s).Repeats := by
  refine FieldsRead.record (Q := (· = {}))
    (.slot (by decide) rfl ?_ (readBy_portSpecs s.inputs)
      (.slot (by decide) rfl ?_ (readBy_portSpecs s.outputs)
        (.slot (by decide) rfl ?_ s.block.readBy
          (.slot (by decide) rfl ?_ h .nil)))) rfl (by decide) (.inl rfl) ?_
  · rintro _ rfl
    rfl
  · rintro _ ⟨_, _, rfl, rfl, rfl⟩
    rfl
  · rintro _ ⟨_, _, ⟨_, _, rfl, rfl, rfl⟩, rfl, rfl⟩
    rfl
  · rintro _ ⟨_, _, ⟨_, _, ⟨_, _, rfl, rfl, rfl⟩, rfl, rfl⟩, rfl, rfl⟩
    rfl
  · rintro _ ⟨_, g, ⟨_, _, ⟨_, _, ⟨_, _, rfl, rfl, rfl⟩, rfl, rfl⟩, rfl, rfl⟩, hg, rfl⟩
    -- all parts are the same but the network, which says the same
    exact ⟨.subnet { s with network := g }, Kind.repeats_subnet hg, Moves.pure _⟩

/-- A variant of a name and a type. -/
theorem readBy_named_type {key recordType : String} {f : String → Reader Kind}
    {make : String → PortType → Kind} (hkey : isPlainName key = true)
    (hrecord : isPlainName recordType = true) (name : String) (type : PortType)
    (hf : f key = do
      let (name, type) ← Reader.payload (PortSlots.nameAndType recordType)
      pure (make name type)) :
    (Form.variant key (nameAndTypeForm name type)).ReadBy limit (group [0, type.levels] + 2)
      (Reader.variant f) (· = make name type) := by
  refine readBy_variant hkey fun depth after => ?_
  rw [hf]
  refine ((readBy_nameAndType hrecord name type).payload depth after).bind_moves ?_
  rintro _ rfl
  exact ⟨_, rfl, Moves.pure _ _⟩

/-- A kind without a network is read back. -/
theorem Kind.readBy_leaf {k : Kind} (network : Reader Graph) (hleaf : ∀ s, k ≠ .subnet s)
    (hnumeric : k.Numeric) : k.form.ReadBy limit k.levels (kindReader network) (· = k) := by
  cases k with
  | constant value =>
    rw [Kind.form, Kind.levels]
    refine (Value.readBy hnumeric).variant (by decide)
      (show _ = (do return Kind.constant (← Reader.payload fun _ => Value.reader)) from rfl) ?_
    rintro _ rfl
    rfl
  | param name type value =>
    rw [Kind.form, Kind.levels]
    exact readBy_variant (by decide) (readBy_param name type hnumeric).payload
  | math op type =>
    rw [Kind.form, Kind.levels]
    exact readBy_variant (by decide) (readBy_math op type).payload
  | globals =>
    rw [Kind.form, Kind.levels]
    exact readBy_word (by decide) (Moves.pure _) rfl
  | «attribute» name type =>
    rw [Kind.form, Kind.levels]
    exact readBy_named_type (by decide) (by decide) name type rfl
  | varyingWrite name type =>
    rw [Kind.form, Kind.levels]
    exact readBy_named_type (by decide) (by decide) name type rfl
  | varyingRead name type =>
    rw [Kind.form, Kind.levels]
    exact readBy_named_type (by decide) (by decide) name type rfl
  | function name inputs result =>
    rw [Kind.form, Kind.levels]
    exact readBy_variant (by decide) (readBy_call name inputs result).payload
  | output target =>
    rw [Kind.form, Kind.levels]
    refine target.readBy.variant (by decide)
      (show _ = (do return Kind.output (← Reader.payload fun _ => Target.reader)) from rfl) ?_
    rintro _ rfl
    rfl
  | subnet s => exact absurd rfl (hleaf s)
  | subnetInput ports =>
    rw [Kind.form, Kind.levels]
    refine (readBy_portSpecs ports).variant (by decide) (show _ =
      (do return Kind.subnetInput (← Reader.payload fun _ => portSpecsReader)) from rfl) ?_
    rintro _ rfl
    rfl
  | subnetOutput ports =>
    rw [Kind.form, Kind.levels]
    refine (readBy_portSpecs ports).variant (by decide) (show _ =
      (do return Kind.subnetOutput (← Reader.payload fun _ => portSpecsReader)) from rfl) ?_
    rintro _ rfl
    rfl

/-- **Kinds.**  A kind is read back if the network in it is. -/
theorem Kind.readBy {network : Reader Graph} {k : Kind} (hnumeric : k.Numeric)
    (hinside : ∀ s, k = .subnet s →
      s.network.form.ReadBy limit s.network.levels network s.network.Repeats) :
    k.form.ReadBy limit k.levels (kindReader network) k.Repeats := by
  by_cases hleaf : ∀ s, k ≠ .subnet s
  · refine (Kind.readBy_leaf network hleaf hnumeric).imp ?_
    rintro _ rfl
    exact Kind.repeats_of_leaf hleaf
  · simp only [ne_eq, not_forall, not_not] at hleaf
    obtain ⟨⟨inputs, outputs, block, inner⟩, rfl⟩ := hleaf
    rw [Kind.form, Kind.levels]
    exact readBy_variant (by decide) (readBy_subnet (hinside _ rfl)).payload

/-! ## §4. Documents and the graphs inside -/

theorem readBy_node {network : Reader Graph} {e : String × Kind}
    (h : e.2.form.ReadBy limit e.2.levels (kindReader network) e.2.Repeats) :
    (Form.record "" [("name", .text e.1), ("kind", e.2.form)]).ReadBy limit
      (group [0, e.2.levels]) (nodeReader network)
      (fun e' => e.1 = e'.1 ∧ e.2.Repeats e'.2) := by
  refine (FieldsRead.two (by decide) rfl (by decide) rfl rfl (fun _ => rfl) (readBy_text e.1)
    h).record rfl (by decide) (.inl rfl) ?_
  rintro _ ⟨_, k, rfl, hk, rfl⟩
  exact ⟨(e.1, k), ⟨rfl, hk⟩, Moves.pure _⟩

namespace Document

/-- How deep a document nests. -/
def levels (d : Document) : Nat :=
  documentLevels (d.nodes.map fun e => group [0, e.2.levels]) d.wires

/-- Whether two documents have the same names and wires, and kinds that agree. -/
def Agrees (R : Kind → Kind → Prop) (d d' : Document) : Prop :=
  d'.name = d.name ∧ List.Forall₂ (fun e e' => e.1 = e'.1 ∧ R e.2 e'.2) d.nodes d'.nodes ∧
    d'.wires = d.wires

/-- **Documents.**  A document is read back one level below what is around it, if its kinds are. -/
theorem readBy {network : Reader Graph} {d : Document}
    (h : ∀ e ∈ d.nodes, e.2.form.ReadBy limit e.2.levels (kindReader network) e.2.Repeats) :
    d.form.ReadBy (limit + 1) d.levels (documentReader network) (d.Agrees Kind.Repeats) := by
  have hnodes := ReadBy.list fun e he => readBy_node (h e he)
  have hwires : (Form.list (d.wires.map Wire.form)).ReadBy limit
      (group (d.wires.map fun _ => group [0, 0])) (Reader.list Wire.reader)
      (List.Forall₂ (fun w w' => w' = w) d.wires) := ReadBy.list fun w _ => w.readBy
  refine (FieldsRead.three (by decide) rfl (by decide) rfl (by decide) rfl rfl (fun _ => rfl)
    (fun _ _ => rfl) (readBy_text d.name) hnodes hwires).record_deep rfl (by decide) (.inl rfl) ?_
  rintro _ ⟨_, entries, ws, rfl, hentries, hws, rfl⟩
  exact ⟨⟨d.name, entries, ws⟩, ⟨rfl, hentries, eq_of_forall₂ hws⟩, Moves.pure _⟩

/-- A document that loads is loaded where it stands, for which there is always room. -/
theorem reads_loadInside {d : Document} {P : Graph → Prop} (text : List Char)
    (h : ∀ supply, ∃ g rest, d.load supply = .ok (g, rest) ∧ P g) :
    Reads limit 0 d.loadInside text text P := by
  intro room supply _
  obtain ⟨g, rest, hload, hg⟩ := h supply
  refine ⟨fun _ => ⟨g, rest, hg, ?_⟩, nofun⟩
  simp only [loadInside, hload]

end Document

theorem Node.forms_eq (ns : List Node) : Node.forms ns = ns.map fun n =>
    .record "" [("name", .text n.name), ("kind", n.kind.form)] := by
  induction ns with
  | nil => rw [Node.forms, List.map_nil]
  | cons n ns ih =>
    cases n
    rw [Node.forms, ih, List.map_cons]

theorem Node.levelsAll_eq (ns : List Node) :
    Node.levelsAll ns = ns.map fun n => group [0, n.kind.levels] := by
  induction ns with
  | nil => rw [Node.levelsAll, List.map_nil]
  | cons n ns ih =>
    cases n
    rw [Node.levelsAll, ih, List.map_cons]

namespace Graph

variable {g : Graph}

theorem form_eq (g : Graph) : g.form = g.toDocument.form := by
  cases g
  rw [form, Node.forms_eq]
  simp only [Document.form, toDocument, List.map_map]
  rfl

theorem levels_eq (g : Graph) : g.levels = g.toDocument.levels := by
  cases g
  rw [levels, Node.levelsAll_eq]
  simp only [Document.levels, toDocument, List.map_map]
  rfl

/-- The values in the nodes of a network are numeric. -/
def Numeric (g : Graph) : Prop := ∀ n ∈ g.nodes, n.kind.Numeric

/-- Whether a network that is saved can be loaded: it is in order, the names of connected ports
    are plain, and its values are numeric. -/
structure Restorable (g : Graph) : Prop where
  orderly : g.Orderly
  plainly : g.Plainly
  numeric : g.Numeric

/-- What is read in place of the document of such a network loads to a network that says the
    same. -/
theorem Restorable.reads_loadInside (h : g.Restorable) {d : Document}
    (hd : g.toDocument.Agrees Kind.Repeats d) (text : List Char) :
    Reads limit 0 d.loadInside text text g.Repeats := by
  obtain ⟨hname, hnodes, hwires⟩ := hd
  have hentries : List.Forall₂ (fun n e => n.name = e.1 ∧ n.kind.Repeats e.2) g.nodes d.nodes :=
    List.forall₂_map_left_iff.mp hnodes
  have hd : d = g.documentOf d.nodes := by
    obtain ⟨name, nodes, wires⟩ := d
    cases hname
    cases hwires
    rfl
  rw [hd]
  refine Document.reads_loadInside text fun supply => ?_
  obtain ⟨g', rest, hload⟩ := (h.orderly.exists_load_iff hentries supply).mpr h.plainly
  exact ⟨g', rest, hload, h.orderly.repeats_of_load hentries hload⟩

theorem one_le_levels (g : Graph) : 1 ≤ g.levels := by
  rw [levels_eq]
  exact Nat.succ_pos _

/-- **Networks.**  A network that can be loaded again is read back by the reader for as many
    levels, if there is room for its own. -/
theorem readBy (limit : Nat) : ∀ {g : Graph}, g.Everywhere Graph.Restorable →
    g.form.ReadBy limit g.levels (Document.networkReader limit) g.Repeats := by
  induction limit with
  -- without room the reader finds everything too deep, and every network takes a level
  | zero =>
    intro g _
    have hpos := g.one_le_levels
    refine ⟨fun depth => ?_, fun depth after _ room supply hroom => ⟨fun hn => ?_, fun _ => rfl⟩⟩
    · rw [form_eq, Document.form, documentForm, render]
      exact ⟨'(', _, rfl, rfl⟩
    · omega
  | succ limit ih =>
    intro g h
    have hread : g.form.ReadBy (limit + 1) g.levels
        (documentReader (Document.networkReader limit)) (g.toDocument.Agrees Kind.Repeats) := by
      rw [form_eq, levels_eq]
      refine Document.readBy fun e he => ?_
      obtain ⟨n, hn, rfl⟩ := List.mem_map.mp he
      exact Kind.readBy (h.here.numeric n hn) fun s hk => ih (h.inside ⟨n, hn, s, hk, rfl⟩)
    refine ⟨hread.opens, fun depth after hafter => ?_⟩
    -- loading follows the reading and takes no level, but it takes identities
    have hbind := (hread.reads depth after hafter).bind (Q := g.Repeats) (m := 0)
      (f := Document.loadInside) fun d hd => h.here.reads_loadInside hd after
    rwa [Nat.max_zero] at hbind

end Graph

/-! ## §5. Levels of the reader and levels of subnets -/

theorem deepest_le {ns : List Nat} {bound : Nat} (h : ∀ n ∈ ns, n ≤ bound) :
    deepest ns ≤ bound + 1 := by
  induction ns with
  | nil => exact Nat.zero_le _
  | cons n ns ih =>
    obtain ⟨hfirst, hrest⟩ := List.forall_mem_cons.mp h
    rw [deepest_cons]
    exact Nat.max_le.mpr ⟨Nat.succ_le_succ hfirst, ih hrest⟩

theorem lt_deepest {ns : List Nat} {n : Nat} (h : n ∈ ns) : n < deepest ns := by
  induction ns with
  | nil => cases h
  | cons m ns ih =>
    rw [deepest_cons]
    rcases List.mem_cons.mp h with rfl | h
    · exact Nat.le_max_left _ _
    · exact Nat.lt_of_lt_of_le (ih h) (Nat.le_max_right _ _)

theorem PortType.levels_le (type : PortType) : type.levels ≤ 5 := by
  cases type <;> exact Nat.le_of_ble_eq_true rfl

theorem Value.levels_le (v : Value) : v.levels ≤ 4 := by
  cases v <;> exact Nat.le_of_ble_eq_true rfl

theorem Block.levels_le (b : Block) : b.levels ≤ 3 := by
  cases b <;> exact Nat.le_of_ble_eq_true rfl

theorem deepest_specs_le (specs : List PortSpec) : deepest (specs.map PortSpec.levels) ≤ 8 := by
  refine deepest_le (List.forall_mem_map.mpr fun spec _ => ?_)
  have htype := spec.type.levels_le
  simp only [PortSpec.levels, group, deepest_cons, deepest_nil]
  omega

/-- How many levels of subnets a kind brings. -/
def Kind.depth : Kind → Nat
  | .subnet s => s.network.depth + 1
  | _ => 0

/-- Whether so many levels of subnets are in keeping with so many levels of the reader. -/
def KeepsPace (depth levels : Nat) : Prop := 10 * depth + 3 ≤ levels ∧ levels ≤ 10 * depth + 19

/-- A kind stays behind the document that has it. -/
theorem Kind.levels_bounds {k : Kind}
    (hinside : ∀ s, k = .subnet s → KeepsPace s.network.depth s.network.levels) :
    10 * k.depth ≤ k.levels + 3 ∧ k.levels ≤ 10 * k.depth + 13 := by
  cases k with
  | constant value =>
    have hvalue := value.levels_le
    simp only [Kind.depth, Kind.levels]
    omega
  | param name type value =>
    have htype := type.levels_le
    have hvalue := value.levels_le
    simp only [Kind.depth, Kind.levels, group, deepest_cons, deepest_nil]
    omega
  | function name inputs result =>
    have hinputs := deepest_specs_le inputs
    have hresult := result.levels_le
    simp only [Kind.depth, Kind.levels, group, deepest_cons, deepest_nil]
    omega
  -- only here do the levels of a network count; the other kinds have a bound of their own
  | subnet s =>
    obtain ⟨inputs, outputs, block, inner⟩ := s
    obtain ⟨hlow, hhigh⟩ : KeepsPace inner.depth inner.levels := hinside _ rfl
    have hinputs := deepest_specs_le inputs
    have houtputs := deepest_specs_le outputs
    have hblock := block.levels_le
    simp only [Kind.depth, Kind.levels, group, deepest_cons, deepest_nil]
    omega
  | math op type =>
    have htype := type.levels_le
    simp only [Kind.depth, Kind.levels, group, deepest_cons, deepest_nil]
    omega
  | «attribute» name type | varyingWrite name type | varyingRead name type =>
    have htype := type.levels_le
    simp only [Kind.depth, Kind.levels, group, deepest_cons, deepest_nil]
    omega
  | subnetInput ports | subnetOutput ports =>
    have hports := deepest_specs_le ports
    simp only [Kind.depth, Kind.levels, group]
    omega
  | globals | output target =>
    simp only [Kind.depth, Kind.levels]
    omega

theorem Node.depths_eq (ns : List Node) :
    Node.depths ns = (ns.map fun n => n.kind.depth).foldr max 0 := by
  induction ns with
  | nil => rw [Node.depths, List.map_nil, List.foldr_nil]
  | cons n ns ih =>
    rw [List.map_cons, List.foldr_cons, ← ih]
    obtain ⟨id, name, kind, dirty, error⟩ := n
    cases kind with
    | subnet s =>
      cases s
      rw [Node.depths]
      rfl
    | _ => simp [Node.depths, Kind.depth]

namespace Document

/-- How many levels of subnets a document holds. -/
def depth (d : Document) : Nat := (d.nodes.map fun e => e.2.depth).foldr max 0

/-- A document keeps pace if the networks in it do. -/
theorem keepsPace_of_inside {d : Document} (hinside : ∀ e ∈ d.nodes, ∀ s, e.2 = .subnet s →
    KeepsPace s.network.depth s.network.levels) : KeepsPace d.depth d.levels := by
  have hwires : deepest (d.wires.map fun _ => group [0, 0]) ≤ 3 :=
    deepest_le (List.forall_mem_map.mpr fun _ _ => Nat.le_refl 2)
  have hdepth : ∀ e ∈ d.nodes, e.2.depth ≤ d.depth := fun e he =>
    List.le_max_of_le (List.mem_map_of_mem he) (Nat.le_refl _)
  have hnodes : deepest (d.nodes.map fun e => group [0, e.2.levels]) ≤ 10 * d.depth + 16 := by
    refine deepest_le (List.forall_mem_map.mpr fun e he => ?_)
    obtain ⟨_, hhigh⟩ := Kind.levels_bounds (hinside e he)
    have hle := hdepth e he
    simp only [group, deepest_cons, deepest_nil]
    omega
  -- the deepest subnet is reached through a node, so the nodes take at least its levels
  have hreach : d.depth ≤ deepest (d.nodes.map fun e => group [0, e.2.levels]) / 10 := by
    refine List.max_le_of_forall_le _ _ (List.forall_mem_map.mpr fun e he => ?_)
    obtain ⟨hlow, _⟩ := Kind.levels_bounds (hinside e he)
    have hlt := lt_deepest (List.mem_map_of_mem (f := fun e => group [0, e.2.levels]) he)
    simp only [group, deepest_cons, deepest_nil] at hlt
    simp only [group, deepest_cons, deepest_nil]
    omega
  unfold KeepsPace levels documentLevels
  simp only [group, deepest_cons, deepest_nil] at *
  omega

end Document

theorem Graph.keepsPace (g : Graph) : KeepsPace g.depth g.levels := by
  induction g using Graph.network_induction with
  | step g ih =>
    have hdepth : g.depth = g.toDocument.depth := by
      cases g
      rw [Graph.depth, Node.depths_eq]
      simp only [Document.depth, Graph.toDocument, List.map_map]
      rfl
    rw [hdepth, Graph.levels_eq]
    refine Document.keepsPace_of_inside fun e he s hs => ?_
    obtain ⟨n, hn, rfl⟩ := List.mem_map.mp he
    exact ih s.network ⟨n, hn, s, hs, rfl⟩

/-! ## §6. Comparison -/

theorem Binary32.sameNumber_self {x : Binary32} (h : x.isNaN = false) : x.sameNumber x = true := by
  simp [sameNumber, h]

theorem Value.same_self {v : Value} (h : v.Numeric) : v.same v = true := by
  cases v <;> simp_all [same, Numeric, floats, Binary32.sameNumber_self]

/-- Kinds that say the same are the same, if the networks in them are. -/
theorem Kind.sameContent_of_repeats {k k' : Kind} (hnumeric : k.Numeric)
    (hinside : ∀ s, k = .subnet s → ∀ network, s.network.Repeats network →
      s.network.sameContent network = true) (h : k.Repeats k') : k.sameContent k' = true := by
  rcases h.cases with ⟨hleaf, rfl⟩ | ⟨s, network, rfl, rfl, hnetwork⟩
  · cases k' with
    | constant value | param name type value =>
      simpa [Kind.sameContent, Kind.sameLeaf] using Value.same_self hnumeric
    | subnet s => exact absurd rfl (hleaf s)
    | _ => simp [Kind.sameContent, Kind.sameLeaf]
  · have hsame := hinside s rfl network hnetwork
    cases s
    simpa [Kind.sameContent] using hsame

theorem Node.sameContents_iff :
    ∀ {ns ns' : List Node}, Node.sameContents ns ns' = true ↔
      List.Forall₂ (fun n n' => n.name = n'.name ∧ n.kind.sameContent n'.kind = true) ns ns'
  | [], [] => by simp [Node.sameContents]
  | { id, name, kind, dirty, error } :: ns, n' :: ns' => by
    rw [Node.sameContents, Bool.and_eq_true, Bool.and_eq_true, beq_iff_eq, List.forall₂_cons,
      Node.sameContents_iff]
  | [], _ :: _ => by simp [Node.sameContents]
  | _ :: _, [] => by simp [Node.sameContents]

/-- Graphs that say the same are the same, if their values are numeric. -/
theorem Graph.sameContent_of_repeats :
    ∀ {g g' : Graph}, g.Everywhere Graph.Numeric → g.Repeats g' → g.sameContent g' = true := by
  intro g
  induction g using Graph.network_induction with
  | step g ih =>
    intro g' hg h
    obtain ⟨hname, hnodes, hends⟩ := Graph.repeats_iff.mp h
    have hsame : Node.sameContents g.nodes g'.nodes = true := by
      refine Node.sameContents_iff.mpr ((forall₂_mem hnodes).imp ?_)
      rintro n n' ⟨⟨hname, hkind⟩, hn, _⟩
      refine ⟨hname, Kind.sameContent_of_repeats (hg.here n hn) (fun s hk network => ?_) hkind⟩
      have hinner : s.network.Nests g := ⟨n, hn, s, hk, rfl⟩
      exact ih s.network hinner (hg.inside hinner)
    cases g
    rw [Graph.sameContent, hsame, hname, hends]
    simp

/-! ## §7. Texts of documents -/

namespace Document

variable {d d' : Document}

/-- Whether all values in a document are numeric, those in the networks of subnets as well. -/
def Numeric (d : Document) : Prop :=
  ∀ e ∈ d.nodes, e.2.Numeric ∧ ∀ s, e.2 = .subnet s → s.network.Everywhere Graph.Numeric

theorem Agrees.sameContent (hnumeric : d.Numeric) (h : d.Agrees Kind.Repeats d') :
    d.Agrees (fun k k' => k.sameContent k' = true) d' := by
  obtain ⟨hname, hnodes, hwires⟩ := h
  refine ⟨hname, (forall₂_mem hnodes).imp ?_, hwires⟩
  rintro e e' ⟨⟨hname, hkind⟩, he, _⟩
  obtain ⟨hown, hinside⟩ := hnumeric e he
  exact ⟨hname, Kind.sameContent_of_repeats hown (fun s hs network =>
    Graph.sameContent_of_repeats (hinside s hs)) hkind⟩

/-- Networks that were loaded and have numeric values can be loaded again. -/
theorem Settled.restorable (h : d.Settled) (hnumeric : d.Numeric) {e : String × Kind}
    (he : e ∈ d.nodes) {s : Subnet} (hs : e.2 = .subnet s) :
    s.network.Everywhere Graph.Restorable := by
  -- what a document loads to is in order at every depth
  have hloaded : s.network.Loaded := h e.1 s (hs ▸ he)
  intro network hnetwork
  obtain ⟨horderly, hplainly⟩ := hloaded.everywhere
  exact ⟨horderly network hnetwork, hplainly network hnetwork,
    (hnumeric e he).2 s hs network hnetwork⟩

/-- The graph of a settled document with numeric values has numeric values. -/
theorem Numeric.everywhere_of_load (hnumeric : d.Numeric) (hsettled : d.Settled) {g : Graph}
    {supply rest : Supply} (hload : d.load supply = .ok (g, rest)) :
    g.Everywhere Graph.Numeric := by
  -- the nodes of the graph are the entries of the document
  have hentry : ∀ n ∈ g.nodes, (n.name, n.kind) ∈ d.nodes := by
    intro n hn
    rw [← hsettled.clean_eq, ← toDocument_of_load hload]
    exact List.mem_map_of_mem (f := fun n : Node => (n.name, n.kind)) hn
  refine .intro (fun n hn => (hnumeric _ (hentry n hn)).1) ?_
  rintro inner ⟨n, hn, s, hs, rfl⟩
  exact (hnumeric _ (hentry n hn)).2 s hs

/-- The form of such a document is read back. -/
theorem Settled.readBy (hsettled : d.Settled) (hnumeric : d.Numeric) :
    d.form.ReadBy nestingLimit d.levels (documentReader (networkReader nestingLimit))
      (d.Agrees Kind.Repeats) := by
  have hread : d.form.ReadBy (nestingLimit + 1) d.levels
      (documentReader (networkReader nestingLimit)) (d.Agrees Kind.Repeats) := by
    refine Document.readBy fun e he => Kind.readBy (hnumeric e he).1 fun s hs => ?_
    exact Graph.readBy nestingLimit (hsettled.restorable hnumeric he hs)
  exact hread.mono (Nat.le_succ _)

theorem head?_form_ne (d : Document) : (d.form.render 0).head? ≠ some '#' := by
  rw [form, documentForm, render]
  show some '(' ≠ some '#'
  decide

theorem ofText_of_levels_le (hsettled : d.Settled) (hnumeric : d.Numeric)
    (hlevels : d.levels ≤ nestingLimit) (supply : Supply) :
    ∃ d' rest, ofText d.text supply = .ok (d', rest) ∧ d.Agrees Kind.Repeats d' := by
  obtain ⟨d', rest, hd', hok⟩ :=
    ((hsettled.readBy hnumeric).readAll d.head?_form_ne supply).1 hlevels
  refine ⟨d', rest, ?_, hd'⟩
  rw [ofText, text, hok]
  rfl

theorem ofText_of_lt_levels (hsettled : d.Settled) (hnumeric : d.Numeric)
    (hlevels : nestingLimit < d.levels) (supply : Supply) :
    ofText d.text supply = .error (.unreadable .tooDeep) := by
  rw [ofText, text, ((hsettled.readBy hnumeric).readAll d.head?_form_ne supply).2 hlevels]
  rfl

theorem keepsPace (d : Document) : KeepsPace d.depth d.levels :=
  keepsPace_of_inside fun _ _ s _ => s.network.keepsPace

/-- **Which texts of documents are read back.**  Take a document with numeric values, whose networks
    are loaded graphs, and a writer that writes it, whatever else the writer may refuse.  The text
    is read back if the document does not nest too deeply for the reader: to a document with the
    same names and wires, and kinds that say the same to the bit and are the same by the comparison
    of kinds.  If it nests more deeply, the text is refused for that reason.  A level of subnets
    takes ten levels of the reader; there are at least three and at most nineteen others. -/
theorem text_read_back (hsettled : d.Settled) (hnumeric : d.Numeric) (supply : Supply) :
    (∀ refusal? text, d.write refusal? = .ok text →
      (d.levels ≤ nestingLimit → ∃ d' rest, ofText text supply = .ok (d', rest) ∧
        d.Agrees Kind.Repeats d' ∧ d.Agrees (fun k k' => k.sameContent k' = true) d') ∧
      (nestingLimit < d.levels → ofText text supply = .error (.unreadable .tooDeep))) ∧
    10 * d.depth + 3 ≤ d.levels ∧ d.levels ≤ 10 * d.depth + 19 := by
  refine ⟨fun refusal? text hwrite => ?_, d.keepsPace⟩
  rw [eq_text_of_write hwrite]
  refine ⟨fun hlevels => ?_, fun hlevels => ?_⟩
  · obtain ⟨d', rest, hok, hd'⟩ := ofText_of_levels_le hsettled hnumeric hlevels supply
    exact ⟨d', rest, hok, hd', hd'.sameContent hnumeric⟩
  · exact ofText_of_lt_levels hsettled hnumeric hlevels supply

/-- A tint that is halved while a condition holds. -/
def tinting : Document where
  name := "tinting"
  nodes :=
    [("tint", .constant (.vector3 .one .half .zero)),
     ("strength", .param "strength \"s\"" .float (.float (.infinity true))),
     ("halve", .subnet ⟨[⟨"x", .float⟩], [⟨"y", .float⟩], .conditional "halved", halving.loaded⟩),
     ("out", .output .material)]
  wires := [⟨"strength.value", "halve.x"⟩, ⟨"tint.value", "out.color"⟩]

theorem tinting_read_back :
    tinting.Settled ∧ tinting.Numeric ∧ ∃ text, tinting.write (fun _ => none) = .ok text ∧
      ∃ d' rest, ofText text {} = .ok (d', rest) ∧
        tinting.Agrees (fun k k' => k.sameContent k' = true) d' := by
  have hleaves : halving.Settled := by
    intro name s hs
    simp [halving] at hs
  obtain ⟨rest, hload⟩ := load_eq_loaded (d := halving) (by decide +kernel)
  have hhalving : halving.Numeric := by
    have hhalf : ∀ x ∈ [Binary32.half], x.isNaN = false := by decide
    simp only [Numeric, halving, List.forall_mem_cons, reduceCtorEq, false_implies, implies_true,
      and_true, List.not_mem_nil]
    exact ⟨trivial, hhalf, trivial, trivial⟩
  have hsettled : tinting.Settled := by
    intro name s hs
    simp only [tinting, List.mem_cons, Prod.mk.injEq, Kind.subnet.injEq, reduceCtorEq, and_false,
      false_or, List.not_mem_nil, or_false] at hs
    rw [hs.2]
    exact .intro hleaves hload
  have hnumeric : tinting.Numeric := by
    have htint : ∀ x ∈ [Binary32.one, .half, .zero], x.isNaN = false := by decide
    have hstrength : ∀ x ∈ [Binary32.infinity true], x.isNaN = false := by decide
    simp only [Numeric, tinting, List.forall_mem_cons, reduceCtorEq, false_implies, implies_true,
      and_true, List.not_mem_nil, Kind.subnet.injEq, forall_eq']
    exact ⟨htint, hstrength, ⟨trivial, hhalving.everywhere_of_load hleaves hload⟩, trivial⟩
  obtain ⟨d', rest', hok, _, hsame⟩ :=
    ((text_read_back hsettled hnumeric {}).1 (fun _ => none) _ rfl).1 (by decide +kernel)
  exact ⟨hsettled, hnumeric, _, rfl, d', rest', hok, hsame⟩

/-- Subnets inside each other, so many levels deep. -/
def burying : Nat → Document
  | 0 => ⟨"d", [], []⟩
  | n + 1 => ⟨"n", [("s", .subnet ⟨[], [], .always, (burying n).loaded⟩)], []⟩

/-- All of them load, so the networks in them are loaded graphs, and there are no values. -/
theorem settled_burying : ∀ n, (burying n).Settled ∧ (burying n).Numeric
  | 0 => ⟨nofun, nofun⟩
  | n + 1 => by
    obtain ⟨hsettled, hnumeric⟩ := settled_burying n
    obtain ⟨rest, hload⟩ := load_eq_loaded (d := burying n) (by cases n <;> rfl)
    constructor
    · intro name s hs
      cases (Prod.mk.inj (List.mem_singleton.mp hs)).2
      exact .intro hsettled hload
    · intro e he
      cases List.mem_singleton.mp he
      refine ⟨trivial, ?_⟩
      rintro _ ⟨⟩
      exact hnumeric.everywhere_of_load hsettled hload

/-- **Thirteen levels of subnets are too many**: the text that is written is refused. -/
theorem burying_refused :
    (burying 13).Settled ∧ (burying 13).Numeric ∧
      ∃ text, (burying 13).write (fun _ => none) = .ok text ∧
        ofText text {} = .error (.unreadable .tooDeep) := by
  obtain ⟨hsettled, hnumeric⟩ := settled_burying 13
  have hdeep : 10 * 13 + 3 ≤ (burying 13).levels := (burying 13).keepsPace.1
  refine ⟨hsettled, hnumeric, _, rfl, ofText_of_lt_levels hsettled hnumeric ?_ {}⟩
  have hlimit : nestingLimit = 128 := rfl
  omega

end Document

end ShaderFlow
