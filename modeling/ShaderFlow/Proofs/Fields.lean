/-
  ShaderFlow.Proofs.Fields — the order in which a point function reads and writes its point.

  The function changes its point in place, so a field that was written before it is read is read
  as it was written.  Which statements read and write which fields, and in which order, is a
  matter of the nodes alone: of attributes and values of the host that feed something, and of
  exports and results that are fed.  So whether a field is read as it came in can be told from the
  order of the nodes.

  Main definitions:
    * `Statement.fieldsRead`, `Statement.fieldsWritten` — the fields in a statement;
    * `Site.fieldsRead`, `Site.fieldsWritten`           — the fields that a node has to do with;
    * `ReadsAsEntered`                                  — no field is read behind its assignment.

  Main statements:
    * `Points.accesses_of_emitLeaf`       — what a node does with the point, and in which order;
    * `Backend.accesses_of_pass`          — what a point function does with it;
    * `Meaning.operand_of_readsAsEntered` — such a read has the value that came in;
    * `Backend.readsAsEntered_iff`        — when fields are read as they came in.
-/

import ShaderFlow.Proofs.Declarations
import ShaderFlow.Proofs.Running
import ShaderFlow.Proofs.Visits

namespace ShaderFlow

open Contribution

variable {context : Context} {g : Graph} {s : Site} {cs : List Contribution}
  {record field : String}

/-! ## §1. Fields in statements -/

/-- What is done with a field. -/
inductive Access where
  | read (field : String)
  | write (field : String)
deriving Repr, DecidableEq

/-- Fields that are read, and behind them fields that are written. -/
def Access.list (reads writes : List String) : List Access := reads.map .read ++ writes.map .write

namespace Access

variable {reads writes : List String}

@[simp] theorem mem_list_read : .read field ∈ list reads writes ↔ field ∈ reads := by
  simp [list]

@[simp] theorem mem_list_write : .write field ∈ list reads writes ↔ field ∈ writes := by
  simp [list]

theorem list_append (reads writes : List String) :
    list reads [] ++ list [] writes = list reads writes := by
  simp [list]

/-- What is read first is not read behind its assignment. -/
theorem pairwise_list :
    (list reads writes).Pairwise fun a later => a = .write field → later ≠ .read field := by
  refine List.pairwise_append.mpr ⟨?_, ?_, ?_⟩
  · rw [List.pairwise_map]
    exact List.pairwise_of_forall fun _ _ => nofun
  · rw [List.pairwise_map]
    exact List.pairwise_of_forall fun _ _ _ => nofun
  · rintro a ha later - rfl
    simp at ha

end Access

namespace Operand

/-- The fields of a record that an operand reads. -/
def fields (record : String) : Operand → List String
  | .field owner name => if owner = record then [name] else []
  | .convert _ _ operand => operand.fields record
  | _ => []

@[simp] theorem fields_as (o : Operand) (source target : PortType) :
    (o.as source target).fields record = o.fields record := by
  unfold as
  split <;> rfl

end Operand

namespace Statement

/-- The fields of a record that a statement reads. -/
def fieldsRead (record : String) : Statement → List String
  | .declare _ _ value | .assign _ value => value.operands.flatMap (Operand.fields record)
  | .openBlock (some condition) => condition.fields record
  | .openBlock none | .closeBlock | .raw _ => []

/-- The field of a record that a statement assigns. -/
def fieldsWritten (record : String) : Statement → List String
  | .assign (.field owner name) _ => if owner = record then [name] else []
  | _ => []

/-- What a statement does with a record: it has read what it assigns. -/
def accesses (record : String) (st : Statement) : List Access :=
  Access.list (st.fieldsRead record) (st.fieldsWritten record)

end Statement

/-- A field is read as it came in: no statement reads it behind one that assigns it. -/
def ReadsAsEntered (record field : String) (body : List Statement) : Prop :=
  body.Pairwise fun st later => field ∈ st.fieldsWritten record → field ∉ later.fieldsRead record

/-! ## §2. Fields at nodes -/

namespace Points

/-- Whether a value of the host is a field of the point. -/
def isField (output : String) : Bool := !(["time", "resolution", "frag_coord"].contains output)

end Points

namespace Site

/-- The fields that a node reads, in order: an attribute that feeds something, and the values of
    the host that do. -/
def fieldsRead (s : Site) : List String :=
  match s.node.kind with
  | .attribute name _ => if s.graph.isOutputConnected s.node.id "value" then [name] else []
  | .globals => (s.graph.connectedOutputs s.node.id).filter Points.isField
  | _ => []

/-- The fields that a node writes, in order: an attribute whose export is fed, and the results
    that are. -/
def fieldsWritten (s : Site) : List String :=
  match s.node.kind with
  | .attribute name _ => if s.isFed Kind.exportInput then [name] else []
  | .output _ => Points.outputFields.filter s.isFed
  | _ => []

/-- What a node does with the point. -/
def accesses (s : Site) : List Access := Access.list s.fieldsRead s.fieldsWritten

/-- An input evaluates to no field. -/
theorem fields_input {name : String} {o : Operand} (h : s.input name = .ok o) :
    o.fields record = [] := by
  unfold input at h
  split at h
  · cases h
  · split at h
    · split at h
      · cases h
      · cases h
        exact Operand.fields_as _ _ _
    · split at h
      · cases h
      · split at h
        · cases h
          exact Operand.fields_as _ _ _
        · cases h
          rfl

theorem fields_inputs {names : List String} {args : List Operand} (h : s.inputs names = .ok args) :
    args.flatMap (Operand.fields record) = [] := by
  rw [List.flatMap_eq_nil_iff]
  intro o ho
  obtain ⟨name, -, hinput⟩ := exists_of_mem_mapM h ho
  exact fields_input hinput

/-- What stands in front of the code of a subnet has nothing to do with the point. -/
theorem accesses_opening {subnet : Subnet} {bindings : List Statement}
    (h : subnet.inputs.mapM s.bindInput = .ok bindings) {st : Statement}
    (hst : st ∈ s.opening subnet bindings) : st.accesses record = [] := by
  rcases List.mem_append.mp hst with hst | hst
  · rcases List.mem_append.mp hst with hst | hst
    · obtain ⟨spec, -, o, ho, rfl⟩ := exists_of_mem_bindings h hst
      simp [Statement.accesses, Access.list, Statement.fieldsRead, Statement.fieldsWritten,
        Expr.operands, fields_input ho]
    · obtain ⟨spec, -, rfl⟩ := List.mem_map.mp hst
      rfl
  · rw [List.mem_singleton] at hst
    subst hst
    cases subnet.block <;> rfl

end Site

/-! ## §3. What nodes do with the point -/

/-- What a note says of a field. -/
def Note.access? : Note → Option Access
  | .reads name => some (.read name)
  | .writes name => some (.write name)
  | _ => none

namespace Points

/-- What contributions do with the point, and what they tell the host about it. -/
def Accesses (s : Site) (cs : List Contribution) (as : List Access) : Prop :=
  (written s.stage cs).flatMap (Statement.accesses (pointOf s)) = as ∧
    (notes cs).filterMap Note.access? = as

/-- A node that has nothing to do with the point. -/
theorem accesses_of_body {body : List Statement}
    (hbody : ∀ st ∈ body, st.accesses (pointOf s) = []) :
    Accesses s [.statements s.stage body] [] := by
  constructor
  · simpa using hbody
  · rfl

/-- Reading a value of the host. -/
theorem spec_readsGlobal {output : String} {r : Reading}
    (h : Backend.points.ReadsGlobal s output r) :
    (notes r.contributions).filterMap Note.access? = Access.list ([output].filter isField) [] ∧
      r.operand.fields (pointOf s) = [output].filter isField ∧
      written s.stage r.contributions = [] := by
  cases h with
  | time => exact ⟨rfl, rfl, rfl⟩
  | resolution _ => exact ⟨rfl, rfl, rfl⟩
  | fragCoord hoperand =>
    rcases hoperand with rfl | rfl
    · exact ⟨rfl, rfl, rfl⟩
    · exact ⟨rfl, rfl, rfl⟩
  | field houtput =>
    have hfield : isField output = true := by
      simpa [isField, Kind.builtins] using houtput
    simp [readField, Note.access?, Operand.fields, Access.list, hfield]

/-- Values of the host are read in order, and none is written. -/
theorem accesses_readings {outputs : List String} {readings : List Reading}
    (h : List.Forall₂ (Backend.points.ReadsGlobal s) outputs readings) :
    (notes (readings.flatMap (·.contributions))).filterMap Note.access? =
        Access.list (outputs.filter isField) [] ∧
      (s.declareAll outputs readings).flatMap (Statement.accesses (pointOf s)) =
        Access.list (outputs.filter isField) [] ∧
      written s.stage (readings.flatMap (·.contributions)) = [] := by
  induction h with
  | nil => exact ⟨rfl, rfl, rfl⟩
  | @cons output r outputs readings hr _ ih =>
    obtain ⟨hnotes, hbody, hquiet⟩ := ih
    obtain ⟨hnote, hoperand, hown⟩ := spec_readsGlobal hr
    have hsplit : Access.list ((output :: outputs).filter isField) [] =
        Access.list ([output].filter isField) [] ++ Access.list (outputs.filter isField) [] := by
      rw [← List.singleton_append, List.filter_append]
      simp [Access.list]
    have hdeclare : (s.declare output (.operand r.operand)).accesses (pointOf s) =
        Access.list ([output].filter isField) [] := by
      simp [Site.declare, Statement.accesses, Statement.fieldsRead, Statement.fieldsWritten,
        Expr.operands, hoperand]
    rw [List.flatMap_cons, Site.declareAll, List.zipWith_cons_cons, List.flatMap_cons, hsplit]
    exact ⟨by rw [notes_append, List.filterMap_append, hnote, hnotes],
      by rw [hdeclare, ← Site.declareAll, hbody],
      by rw [written_append, hown, hquiet, List.append_nil]⟩

/-- Values of inputs that are written to fields, in order. -/
theorem accesses_writes {input : String → String} {type : String → PortType}
    {names : List String} {writes : List (Contribution × Statement)}
    (h : List.Forall₂ (fun name write => ∃ value, s.input (input name) = .ok value ∧
      Backend.points.Puts s name (type name) value write) names writes) :
    (notes (writes.map (·.1))).filterMap Note.access? = Access.list [] names ∧
      (writes.map (·.2)).flatMap (Statement.accesses (pointOf s)) = Access.list [] names ∧
      written s.stage (writes.map (·.1)) = [] := by
  induction h with
  | nil => exact ⟨rfl, rfl, rfl⟩
  | @cons name write names writes hwrite _ ih =>
    obtain ⟨value, hvalue, ⟨⟩⟩ := hwrite
    obtain ⟨hnotes, hbody, hquiet⟩ := ih
    have hassign : (writeField s name value).2.accesses (pointOf s) = [.write name] := by
      simp [writeField, Statement.accesses, Statement.fieldsRead, Statement.fieldsWritten,
        Expr.operands, Site.fields_input hvalue, Access.list]
    refine ⟨?_, ?_, ?_⟩
    · rw [List.map_cons, writeField, notes_note, List.filterMap_cons, hnotes]
      rfl
    · rw [List.map_cons, List.flatMap_cons, hassign, hbody]
      rfl
    · rw [List.map_cons, writeField, written_note, hquiet]

/-- A node that exchanges values with its host reads before it writes. -/
theorem accesses_exchange (reads : List String) (input : String → String)
    (type : String → PortType) {names : List String} {writes : List (Contribution × Statement)}
    (hwrites : List.Forall₂ (fun name write => ∃ value, s.input (input name) = .ok value ∧
      Backend.points.Puts s name (type name) value write) names writes) :
    Accesses s (s.exchange (reads.map (readField s)) writes) (Access.list reads names) := by
  obtain ⟨hnotes, hbody, hquiet⟩ := accesses_writes hwrites
  have hnoted : (notes ((reads.map (readField s)).flatMap (·.contributions))).filterMap
      Note.access? = Access.list reads [] := by
    rw [List.flatMap_map, notes_flatMap]
    simp [readField, Note.access?, Access.list, List.filterMap_flatMap, List.map_eq_flatMap]
  have hdeclared : ((reads.map (readField s)).map fun r =>
      s.declare "value" (.operand r.operand)).flatMap (Statement.accesses (pointOf s)) =
        Access.list reads [] := by
    simpa [readField, Site.declare, Statement.accesses, Statement.fieldsRead,
      Statement.fieldsWritten, Expr.operands, Operand.fields, Access.list, List.flatMap_map]
      using List.map_eq_flatMap.symm
  have hsilent : written s.stage ((reads.map (readField s)).flatMap (·.contributions)) = [] := by
    refine written_flatMap_eq_nil fun r hr => ?_
    obtain ⟨name, -, rfl⟩ := List.mem_map.mp hr
    rfl
  -- code and notes are made of the same two lists, first what is read and then what is written
  rw [← Access.list_append]
  constructor
  · simp only [Site.exchange, written_append, hsilent, hquiet, written_statements, if_true,
      written_nil, List.append_nil, List.nil_append, List.flatMap_append, hdeclared, hbody]
  · simp only [Site.exchange, notes_append, notes_statements, notes_nil, List.append_nil,
      List.filterMap_append, hnoted, hnotes]

/-- A node that declares its output from values has nothing to do with the point. -/
theorem accesses_declare {output : String} {value : Expr}
    (hvalue : value.operands.flatMap (Operand.fields (pointOf s)) = []) :
    Accesses s [.statements s.stage [s.declare output value]] [] := by
  refine accesses_of_body fun st hst => ?_
  rw [List.mem_singleton.mp hst]
  simp [Site.declare, Statement.accesses, Statement.fieldsRead, Statement.fieldsWritten, hvalue,
    Access.list]

/-- Nor has one that assigns what its inputs evaluate to, unless it assigns a field. -/
theorem accesses_assign {name : String} {place : Place} {value : Operand}
    (hvalue : s.input name = .ok value) (hplace : ∀ record field, place ≠ .field record field) :
    (Statement.assign place (.operand value)).accesses (pointOf s) = [] := by
  have hwritten : (Statement.assign place (.operand value)).fieldsWritten (pointOf s) = [] := by
    cases place with
    | field record field => exact absurd rfl (hplace record field)
    | _ => rfl
  simp [Statement.accesses, hwritten, Statement.fieldsRead, Expr.operands,
    Site.fields_input hvalue, Access.list]

/-- An attribute is read where its value feeds something, and written where its export is fed. -/
theorem accesses_stored {name : String} {type : PortType} {readings : List Reading}
    {writes : List (Contribution × Statement)}
    (hreadings : Backend.points.GetsUsed s name type readings)
    (hwrites : Backend.points.PutsFed s name type writes) :
    Accesses s (s.exchange readings writes) (Access.list
      (if s.graph.isOutputConnected s.node.id "value" then [name] else [])
      (if s.isFed Kind.exportInput then [name] else [])) := by
  have hread : readings =
      (if s.graph.isOutputConnected s.node.id "value" = true then [name] else []).map
        (readField s) := by
    cases hreadings with
    | unused hunused => simp [hunused]
    | used hused hr =>
      cases hr
      simp [hused]
  rw [hread]
  refine accesses_exchange _ (fun _ => Kind.exportInput) (fun _ => type) ?_
  cases hwrites with
  | idle hidle =>
    have hidle : s.isFed Kind.exportInput = false := by simpa [Backend.owns] using hidle
    simp [hidle]
  | fed hfed _ hvalue hput =>
    rw [if_pos hfed]
    exact .cons ⟨_, hvalue, hput⟩ .nil

/-- **What a node does with the point**, and in which order; the host is told the same. -/
theorem accesses_of_emitLeaf (h : Backend.points.emitLeaf s s.node.kind = .ok cs) :
    Accesses s cs s.accesses := by
  rw [Site.accesses, Site.fieldsRead, Site.fieldsWritten]
  cases Site.emits_of_emitLeaf h with
  | constant hk | param hk | varyingRead hk =>
    rw [hk]
    exact accesses_declare rfl
  | math hk hargs | function hk _ hargs =>
    rw [hk]
    exact accesses_declare (Site.fields_inputs hargs)
  | globals hk hreadings =>
    rw [hk]
    obtain ⟨hnotes, hbody, hquiet⟩ := accesses_readings hreadings
    exact ⟨by simpa [hquiet] using hbody, by simpa using hnotes⟩
  | «attribute» hk h =>
    rw [hk]
    cases h with
    | exchanged _ hreadings hwrites => exact accesses_stored hreadings hwrites
  | @varyingWrite name _ value hk hvalue =>
    rw [hk]
    have hassign : Accesses s [.statements s.stage
        [.assign (.varying (Backend.varyingName name)) (.operand value)]] [] := by
      refine accesses_of_body fun st hst => ?_
      rw [List.mem_singleton.mp hst]
      exact accesses_assign hvalue nofun
    split <;> exact hassign
  | output hk h =>
    rw [hk]
    cases h with
    | written _ hwrites =>
      exact accesses_exchange [] id (fun _ => .vector3) hwrites
  | subnetOutput hk hbody =>
    rw [hk]
    refine accesses_of_body fun st hst => ?_
    obtain ⟨name, -, value, hvalue, rfl⟩ := exists_mem_of_forall₂ hbody.flip st hst
    exact accesses_assign hvalue nofun
  | subnet hk | subnetInput hk =>
    rw [hk]
    exact ⟨rfl, rfl⟩

end Points

/-- What nodes do with the point passes through subnets, in the body of a point function and in
    what its host is told. -/
theorem gathers_accesses (context : Context) :
    Gathers .points context .point (fun cs => (written .point cs).flatMap
        (Statement.accesses context.config.points.pointVariable)) Site.accesses ∧
      Gathers .points context .point (fun cs => (notes cs).filterMap Note.access?)
        Site.accesses := by
  constructor
  · refine gathers_written (fun hbindings st hst => Site.accesses_opening hbindings hst) rfl ?_
    intro s cs hstage hcontext _ hemit
    have haccesses := (Points.accesses_of_emitLeaf hemit).1
    rwa [Points.pointOf, hstage, hcontext] at haccesses
  · exact gathers_notes fun _ hemit => (Points.accesses_of_emitLeaf hemit).2

/-- **What a point function does with its point** is what its nodes do, in order, and what its host
    is told. -/
theorem Backend.accesses_of_pass {p : Progress} (h : Backend.points.pass g context = .ok p) :
    ∃ sites, Backend.points.Visits g context sites ∧
      (p.statements .point).flatMap (Statement.accesses context.config.points.pointVariable) =
        sites.flatMap Site.accesses ∧
      p.notes.filterMap Note.access? = sites.flatMap Site.accesses := by
  obtain ⟨output, builds, hbuilds⟩ := Backend.builds_of_pass h
  obtain ⟨sites, hsites, hgather⟩ := hbuilds.visits
  have hstage : ∀ {gather : List Contribution → List Access},
      Gathers .points context .point gather Site.accesses →
        ∀ stage ∈ Backend.points.stages, Gathers .points context stage gather Site.accesses := by
    intro gather hgathers stage hmem
    rw [List.mem_singleton.mp hmem]
    exact hgathers
  obtain ⟨hbody, hnotes⟩ := gathers_accesses context
  refine ⟨sites, hsites, ?_, ?_⟩
  · rw [hbuilds.statements_point, ← hgather (hstage hbody), List.flatMap_assoc]
    simp only [List.flatMap_assoc]
  · rw [hbuilds.notes_eq, ← hgather (hstage hnotes), List.filterMap_flatMap]
    simp only [List.filterMap_flatMap]

/-! ## §4. Reading and writing in order -/

/-- No field is read behind its assignment in a body if and only if no node reads it behind a node
    that writes it. -/
theorem readsAsEntered_iff_of_accesses {body : List Statement} {sites : List Site}
    (h : body.flatMap (Statement.accesses record) = sites.flatMap Site.accesses) :
    ReadsAsEntered record field body ↔
      sites.Pairwise fun s later => field ∈ s.fieldsWritten → field ∉ later.fieldsRead := by
  -- both say this of the accesses one after the other, whose groups are in order themselves
  have hgroups : ∀ {ι : Type} (reads writes : ι → List String) (is : List ι),
      (is.flatMap fun i => Access.list (reads i) (writes i)).Pairwise
          (fun a later => a = .write field → later ≠ .read field) ↔
        is.Pairwise fun i later => field ∈ writes i → field ∉ reads later := by
    intro ι reads writes is
    rw [List.pairwise_flatMap, and_iff_right fun _ _ => Access.pairwise_list]
    refine List.Pairwise.iff fun i later => ?_
    constructor
    · intro hapart hwrites hreads
      exact hapart _ (Access.mem_list_write.mpr hwrites) _ (Access.mem_list_read.mpr hreads) rfl rfl
    · rintro hapart _ ha _ hlater rfl rfl
      exact hapart (Access.mem_list_write.mp ha) (Access.mem_list_read.mp hlater)
  rw [ReadsAsEntered, ← hgroups, ← hgroups]
  exact h ▸ Iff.rfl

namespace Meaning

variable {V : Type} {M : Meaning V} {σ τ : Store V}

/-- A statement that does not assign a field leaves it as it was. -/
theorem last?_step {st : Statement} (h : M.step σ st = some τ)
    (hst : field ∉ st.fieldsWritten record) :
    τ.last? (.field record field) = σ.last? (.field record field) := by
  unfold step at h
  split at h
  · cases h
    rfl
  · cases h
    rfl
  · cases h
    rfl
  · obtain ⟨v, -, h⟩ := Option.bind_eq_some_iff.mp h
    unfold Store.declare at h
    split at h
    · cases h
    · cases h
      rfl
  · obtain ⟨v, -, h⟩ := Option.bind_eq_some_iff.mp h
    unfold Store.assign at h
    split at h
    · cases h
      rfl
    · obtain ⟨outer, -, rfl⟩ := Option.map_eq_some_iff.mp h
      rfl
  -- the one step that writes to a place writes to another one
  next place value _ _ =>
    obtain ⟨v, -, rfl⟩ := Option.map_eq_some_iff.mp h
    have hne : (place == .field record field) = false := by
      rw [beq_eq_false_iff_ne]
      rintro rfl
      simp [Statement.fieldsWritten] at hst
    simp [Store.last?, Store.write, Table.get?, hne]
  · cases h
    rfl
  · obtain ⟨v, -, rfl⟩ := Option.map_eq_some_iff.mp h
    split <;> rfl
  · unfold Store.leave at h
    split at h
    · cases h
    · cases h
      rfl
  · cases h

/-- So does a body without such assignments. -/
theorem last?_run :
    ∀ {body : List Statement} {σ : Store V}, M.run σ body = some τ →
      (∀ st ∈ body, field ∉ st.fieldsWritten record) →
        τ.last? (.field record field) = σ.last? (.field record field)
  | [], σ, h, _ => by
    cases h
    rfl
  | st :: body, σ, h, hbody => by
    rw [run, List.foldlM_cons] at h
    obtain ⟨middle, hstep, hrest⟩ := Option.bind_eq_some_iff.mp h
    rw [last?_run hrest fun later hlater => hbody later (List.mem_cons_of_mem _ hlater),
      last?_step hstep (hbody st List.mem_cons_self)]

/-- **A field that is read as it came in has the value that came in**, at every statement that
    reads it. -/
theorem operand_of_readsAsEntered {before after : List Statement} {st : Statement}
    (h : ReadsAsEntered record field (before ++ st :: after))
    (hreads : field ∈ st.fieldsRead record) (hrun : M.run {} before = some σ) :
    M.operand σ (.field record field) = some (M.field record field) := by
  have hbefore : ∀ earlier ∈ before, field ∉ earlier.fieldsWritten record := by
    intro earlier hearlier hwrites
    exact (List.pairwise_append.mp h).2.2 earlier hearlier st List.mem_cons_self hwrites hreads
  rw [operand, last?_run hrun hbefore]
  rfl

end Meaning

/-- **When fields are read as they came in.**  In the body of a point function no statement reads
    a field behind one that assigns it exactly when, in the order in which the leaves are emitted,
    no node reads the field behind a node that writes it; and then every statement that reads the
    field has the value that came in, whatever the names in the code stand for. -/
theorem Backend.readsAsEntered_iff {left : Backend} {program : Program}
    (h : Backend.points.compile g context = (left, .ok program)) :
    ∃ p sites, Backend.points.pass g context = .ok p ∧ Backend.points.Visits g context sites ∧
      ∀ field,
        (ReadsAsEntered context.config.points.pointVariable field (p.statements .point) ↔
          sites.Pairwise fun s later => field ∈ s.fieldsWritten → field ∉ later.fieldsRead) ∧
        (ReadsAsEntered context.config.points.pointVariable field (p.statements .point) →
          ∀ {V : Type} (M : Meaning V) (before after : List Statement) (st : Statement)
            (σ : Store V), p.statements .point = before ++ st :: after →
              field ∈ st.fieldsRead context.config.points.pointVariable →
              M.run {} before = some σ →
                M.operand σ (.field context.config.points.pointVariable field) =
                  some (M.field context.config.points.pointVariable field)) := by
  obtain ⟨p, hp⟩ := Backend.pass_of_compile (congrArg Prod.snd h)
  obtain rfl : left = .points := (congrArg Prod.fst h).symm
  obtain ⟨sites, hsites, hbody, -⟩ := Backend.accesses_of_pass hp
  refine ⟨p, sites, hp, hsites, fun field => ⟨readsAsEntered_iff_of_accesses hbody, ?_⟩⟩
  intro hentered V M before after st σ hsplit hreads hrun
  rw [hsplit] at hentered
  exact Meaning.operand_of_readsAsEntered hentered hreads hrun

/-- A point whose position is the given output, and whose field `home` is the position. -/
def homing (source : NodeId) (output : String) : Graph :=
  { Graph.empty "g" with
    nodes :=
      [.make ⟨1⟩ "out" (.output .points),
       .make ⟨2⟩ "k" (.constant (.vector3 .zero .zero .zero)),
       .make ⟨3⟩ "glob" .globals,
       .make ⟨4⟩ "home" (.attribute "home" .vector3)]
    connections :=
      [⟨⟨5⟩, source, output, ⟨1⟩, "position"⟩, ⟨⟨6⟩, ⟨3⟩, "position", ⟨4⟩, "export"⟩]
    version := 6 }

/-- A position that stays is read once, before it is written. -/
theorem homing_stays : ∃ program p,
    Backend.points.compile (homing ⟨3⟩ "position") {} = (.points, .ok program) ∧
      Backend.points.pass (homing ⟨3⟩ "position") {} = .ok p ∧
      p.statements .point =
        [.declare .vector3 "v_glob_position" (.operand (.field "point" "position")),
         .assign (.field "point" "position") (.operand (.var "v_glob_position")),
         .assign (.field "point" "home") (.operand (.var "v_glob_position"))] ∧
      ∃ sites, Backend.points.Visits (homing ⟨3⟩ "position") {} sites ∧
        sites.Pairwise fun s later =>
          "position" ∈ s.fieldsWritten → "position" ∉ later.fieldsRead := by
  have hpass : (Backend.points.pass (homing ⟨3⟩ "position") {}).map (·.statements .point) =
      .ok [.declare .vector3 "v_glob_position" (.operand (.field "point" "position")),
        .assign (.field "point" "position") (.operand (.var "v_glob_position")),
        .assign (.field "point" "home") (.operand (.var "v_glob_position"))] := by
    decide +kernel
  obtain ⟨p, hp, hbody⟩ := map_eq_ok.mp hpass
  obtain ⟨program, hcompile, -⟩ := Backend.compile_points hp
  obtain ⟨p', sites, hp', hsites, hiff⟩ := Backend.readsAsEntered_iff hcompile
  obtain rfl := Except.ok.inj (hp.symm.trans hp')
  refine ⟨_, p, hcompile, hp, hbody, sites, hsites, (hiff "position").1.mp ?_⟩
  rw [hbody]
  simp [ReadsAsEntered, Statement.fieldsWritten, Statement.fieldsRead, Expr.operands,
    Operand.fields]

/-- A position that is set is read behind its assignment: `home` becomes the new position,
    whatever the point came in with. -/
theorem homing_moved : ∃ program p,
    Backend.points.compile (homing ⟨2⟩ "value") {} = (.points, .ok program) ∧
      Backend.points.pass (homing ⟨2⟩ "value") {} = .ok p ∧
      p.statements .point =
        [.declare .vector3 "v_k_value" (.operand (.literal (.vector3 .zero .zero .zero))),
         .assign (.field "point" "position") (.operand (.var "v_k_value")),
         .declare .vector3 "v_glob_position" (.operand (.field "point" "position")),
         .assign (.field "point" "home") (.operand (.var "v_glob_position"))] ∧
      ¬ReadsAsEntered "point" "position" (p.statements .point) ∧
      ∀ {V : Type} (M : Meaning V), ∃ σ, M.run {} (p.statements .point) = some σ ∧
        σ.last? (.field "point" "home") = some (M.literal (.vector3 .zero .zero .zero)) := by
  have hpass : (Backend.points.pass (homing ⟨2⟩ "value") {}).map (·.statements .point) =
      .ok [.declare .vector3 "v_k_value" (.operand (.literal (.vector3 .zero .zero .zero))),
        .assign (.field "point" "position") (.operand (.var "v_k_value")),
        .declare .vector3 "v_glob_position" (.operand (.field "point" "position")),
        .assign (.field "point" "home") (.operand (.var "v_glob_position"))] := by
    decide +kernel
  obtain ⟨p, hp, hbody⟩ := map_eq_ok.mp hpass
  obtain ⟨program, hcompile, -⟩ := Backend.compile_points hp
  refine ⟨_, p, hcompile, hp, hbody, ?_, ?_⟩
  · rw [hbody]
    simp [ReadsAsEntered, Statement.fieldsWritten, Statement.fieldsRead, Expr.operands,
      Operand.fields]
  · intro V M
    rw [hbody]
    exact ⟨_, rfl, rfl⟩

end ShaderFlow
