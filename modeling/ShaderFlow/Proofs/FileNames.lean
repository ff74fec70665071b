/-
  ShaderFlow.Proofs.FileNames — the files of a bundle stay in their directory.

  A file name is what is kept of the name of the graph, which is never empty and cannot lead
  anywhere, and a suffix of a fixed form.  No two files of a bundle have the same suffix: the
  shaders of a particle simulation carry different indices.  A name of this kind leads from a
  directory to a file right inside it, so writing a bundle touches nothing else, and what is read
  of the manifest lists these names.

  Main definitions:
    * `Suffix`           — what stands behind the stem of a file name;
    * `Bundle.children`  — the files of a bundle by location;
    * `Bundle.Contained` — what keeps a bundle in the directory it is written into.

  Main statements:
    * `Suffix.text_injective`        — suffixes are told apart by their texts;
    * `Program.nodup_suffixes`       — no two files have the same suffix;
    * `resolve_joinPath`             — where a file name leads;
    * `Artifact.contained_of_bundle` — the bundles of compiled graphs.
-/

import Mathlib.Data.List.Nodup
import ShaderFlow.Delivery.Disk
import ShaderFlow.Proofs.Manifests
import ShaderFlow.Proofs.Templates

namespace ShaderFlow

variable {a : Artifact} {b : Bundle} {g : Graph} {context : Context}

/-! ## §1. Stems -/

theorem fileStem_ne_empty (graph : String) : fileStem graph ≠ "" := by
  rw [fileStem]
  split
  next => decide
  next hne =>
    intro hempty
    have hnil := congrArg String.toList hempty
    simp [String.isEmpty_iff] at hnil hne
    exact hne hnil

/-- Stems hold nothing but letters, digits, underscores and hyphens. -/
theorem isFileChar_of_mem_fileStem {graph : String} {c : Char}
    (h : c ∈ (fileStem graph).toList) : isFileChar c = true := by
  rw [fileStem] at h
  split at h
  next =>
    have hall : "graph".toList.all isFileChar = true := by decide
    exact List.all_eq_true.mp hall c h
  next =>
    rw [String.toList_ofList] at h
    obtain ⟨c', -, rfl⟩ := List.mem_map.mp h
    cases hkept : isFileChar c' <;> simp [hkept]
    decide

/-! ## §2. Suffixes -/

/-- What stands behind the stem in the name of a file. -/
inductive Suffix where
  /-- The vertex stage of a material. -/
  | vertex
  /-- The fragment stage of a material. -/
  | fragment
  /-- The shader of a state texture. -/
  | simulation (texture : Nat)
  /-- A point function. -/
  | point
  /-- The manifest. -/
  | manifest
deriving DecidableEq

namespace Suffix

/-- A suffix as it stands in a name. -/
def text : Suffix → String
  | .vertex => ".vert"
  | .fragment => ".frag"
  | .simulation texture => ".sim" ++ toString texture ++ ".frag"
  | .point => ".point.glsl"
  | .manifest => ".json"

/-- The second character of a suffix. -/
theorem head_drop_text (s : Suffix) :
    (s.text.toList.drop 1).head? = some (match s with
      | .vertex => 'v' | .fragment => 'f' | .simulation _ => 's' | .point => 'p'
      | .manifest => 'j') := by
  cases s with
  | simulation i => simp [text, String.toList_append]
  | _ => rfl

/-- Suffixes are told apart by their texts: by the second character, and those of state textures
    by their index. -/
theorem text_injective : Function.Injective text := by
  intro s s' h
  have hsecond := congrArg (fun t : String => (t.toList.drop 1).head?) h
  simp only [head_drop_text] at hsecond
  cases s <;> cases s' <;> simp at hsecond
  -- two indices with the same digits are the same number
  case simulation.simulation i j =>
    have hrepr : i.repr = j.repr := by simpa [text] using h
    have hdigits : Nat.toDigits 10 i = Nat.toDigits 10 j := by
      rw [← Nat.toList_repr, ← Nat.toList_repr, hrepr]
    calc
      Suffix.simulation i = .simulation (Nat.ofDigitChars 10 (Nat.toDigits 10 i) 0) := by
        rw [Nat.ofDigitChars_ten_toDigits]
      _ = .simulation j := by rw [hdigits, Nat.ofDigitChars_ten_toDigits]
  all_goals rfl

/-- Besides file characters suffixes only hold dots. -/
theorem isFileChar_of_mem_text {s : Suffix} {c : Char} (h : c ∈ s.text.toList) :
    isFileChar c = true ∨ c = '.' := by
  have hfixed : ∀ {cs : List Char}, (cs.all fun c => isFileChar c || c == '.') = true → c ∈ cs →
      isFileChar c = true ∨ c = '.' := by
    intro cs hall hc
    simpa using List.all_eq_true.mp hall c hc
  cases s with
  | simulation i =>
    simp only [text, String.toList_append, List.mem_append] at h
    rcases h with (h | h) | h
    · exact hfixed (by decide) h
    · left
      have hdigit : c.isDigit := by
        rw [Nat.toString_eq_repr, Nat.toList_repr] at h
        exact Nat.isDigit_of_mem_toDigits (by decide) (by decide) h
      simp [isFileChar, Char.isAlphanum, hdigit]
    · exact hfixed (by decide) h
  | _ => exact hfixed (by decide) h

end Suffix

/-! ## §3. The names of the files of a program -/

namespace Program

/-- The suffixes of the stage files of a program. -/
def suffixes : Program → List Suffix
  | .material _ => [.vertex, .fragment]
  | .particles p => p.shaders.map fun shader => .simulation shader.index
  | .points _ => [.point]

theorem suffixes_particles (p : ParticlesProgram) :
    suffixes (.particles p) = (p.shaders.map (·.index)).map Suffix.simulation :=
  List.map_map.symm

theorem names_files (p : Program) (stem : String) :
    (p.files stem).map (·.1) = p.suffixes.map (stem ++ ·.text) := by
  cases p with
  | material p => rfl
  | particles p =>
    rw [files, suffixes, List.map_map, List.map_map]
    refine List.map_congr_left fun shader _ => ?_
    simp [Suffix.text, String.append_assoc]
  | points p => rfl

end Program

/-- The shaders of a particle simulation carry the indices of its textures in order. -/
theorem ParticlesProgram.indices_of_assemble {p : Progress} {table : Allocations}
    {kept : ParticlesProgram} (h : ParticlesProgram.assemble p table = .ok kept) :
    kept.shaders.map (·.index) =
      List.range (min kept.allocations.textures.length (Allocations.lastIndex + 1)) := by
  obtain ⟨shaders, hshaders, hkept⟩ := bind_eq_ok.mp h
  cases hkept
  -- a shader is assembled for each index and carries it
  have hindices : shaders.map (·.index) =
      (Particles.stages table).filterMap Stage.texture? := by
    symm
    rw [← List.forall₂_eq_eq_eq, List.forall₂_map_right_iff]
    refine (mapM_eq_ok.mp hshaders).imp fun index shader hshader => ?_
    obtain ⟨source, -, hshader⟩ := bind_eq_ok.mp hshader
    cases hshader
    rfl
  show shaders.map (·.index) = _
  rw [hindices, Particles.stages, List.filterMap_map]
  exact List.filterMap_some

theorem ParticlesProgram.indices_of_compile {backend left : Backend} {kept : ParticlesProgram}
    (h : backend.compile g context = (left, .ok (.particles kept))) :
    kept.shaders.map (·.index) =
      List.range (min kept.allocations.textures.length (Allocations.lastIndex + 1)) := by
  cases backend with
  | material =>
    -- what comes of this backend is a material
    obtain ⟨-, h⟩ := Prod.mk.inj h
    obtain ⟨_, -, h⟩ := bind_eq_ok.mp h
    obtain ⟨_, -, h⟩ := bind_eq_ok.mp h
    cases h
  | particles table =>
    obtain ⟨_, _, _, -, hkept, -, -, hassemble⟩ := Backend.particles_of_compile h
    cases hkept
    exact indices_of_assemble hassemble
  | points =>
    obtain ⟨_, _, -, hpoints, -⟩ := Backend.points_of_compile h
    cases hpoints

/-- **No two files have the same suffix**, and none has that of the manifest. -/
theorem Program.nodup_suffixes {backend left : Backend} {p : Program}
    (h : backend.compile g context = (left, .ok p)) :
    (p.suffixes ++ [Suffix.manifest]).Nodup := by
  cases p with
  | material p =>
    show [Suffix.vertex, .fragment, .manifest].Nodup
    decide
  | points p =>
    show [Suffix.point, .manifest].Nodup
    decide
  | particles kept =>
    have hindices : (kept.shaders.map (·.index)).Nodup := by
      rw [ParticlesProgram.indices_of_compile h]
      exact List.nodup_range
    rw [suffixes_particles, List.nodup_append]
    refine ⟨List.Nodup.map (fun i j hij => Suffix.simulation.inj hij) hindices,
      List.nodup_singleton _, ?_⟩
    rintro _ hs _ hmanifest rfl
    obtain ⟨i, -, hi⟩ := List.mem_map.mp hs
    rw [List.mem_singleton.mp hmanifest] at hi
    cases hi

/-! ## §4. Where names lead -/

theorem Location.walk_append (p : Location) (path rest : List Char) :
    p.walk (path ++ '/' :: rest) = (p.walk path).walk rest := by
  rw [walk, List.splitOn, List.splitOnP_append_cons path rest (by simp), List.foldl_append]
  rfl

/-- A name without slashes that does not stand for a location of its own leads one step down. -/
theorem Location.walk_name (p : Location) {name : String} (hslash : '/' ∉ name.toList)
    (hname : name ∉ ["", ".", ".."]) : p.walk name.toList = p ++ [name] := by
  have hsplit : name.toList.splitOn '/' = [name.toList] :=
    List.splitOnP_eq_singleton fun c hc => by
      rw [beq_eq_false_iff_ne]
      exact fun heq => hslash (heq ▸ hc)
  -- the whole name is one part of the path, and not one of those that stay or lead up
  have hne : ∀ other ∈ ["", ".", ".."], name.toList ≠ other.toList := fun other hother heq =>
    hname (String.toList_injective heq ▸ hother)
  rw [walk, hsplit, List.foldl_cons, List.foldl_nil, follow, if_neg, if_neg, String.ofList_toList]
  · exact hne ".." (by decide)
  · exact not_or.mpr ⟨hne "" (by decide), hne "." (by decide)⟩

/-- **A plain name leads from a directory to what is right inside it**, whatever the path of
    the directory. -/
theorem resolve_joinPath (working : Location) (directory : String) {name : String}
    (hslash : '/' ∉ name.toList) (hname : name ∉ ["", ".", ".."]) :
    resolve working (joinPath directory name) = resolve working directory ++ [name] := by
  have hhead : (name.toList.head? == some '/') = false := by
    rw [beq_eq_false_iff_ne]
    exact fun heq => hslash (List.mem_of_head? heq)
  by_cases hempty : directory = ""
  · subst hempty
    rw [joinPath, if_pos (by simp), resolve, hhead]
    exact Location.walk_name working hslash hname
  · -- the path of the directory, with a slash that may be there already, and then the name
    have hpath : ∃ path, (joinPath directory name).toList = path ++ '/' :: name.toList ∧
        (directory.toList = path ∨ directory.toList = path ++ ['/']) := by
      rw [joinPath, if_neg (by simp [hempty, hhead])]
      split
      next hlast =>
        obtain ⟨path, hd⟩ := List.getLast?_eq_some_iff.mp (beq_iff_eq.mp hlast)
        exact ⟨path, by simp [hd], .inr hd⟩
      next => exact ⟨directory.toList, by simp, .inl rfl⟩
    obtain ⟨path, hjoin, hdirectory⟩ := hpath
    have hstart : (joinPath directory name).toList.head? = directory.toList.head? := by
      have hcons : directory.toList ≠ [] := by simpa using hempty
      rw [hjoin]
      rcases hdirectory with hd | hd
      · rw [hd] at hcons ⊢
        rw [List.head?_append_of_ne_nil _ hcons]
      · simp [hd]
    have hwalk : ∀ start : Location, start.walk directory.toList = start.walk path := by
      intro start
      rcases hdirectory with hd | hd
      · rw [hd]
      · rw [hd, Location.walk_append]
        rfl
    -- both paths start alike, and a slash at the end leads nowhere
    rw [resolve, resolve, hstart, hjoin, Location.walk_append, Location.walk_name _ hslash hname,
      hwalk]

/-! ## §5. Writing a bundle -/

namespace Bundle

/-- The files of a bundle by location. -/
def children (b : Bundle) (directory : Location) : Disk :=
  b.allFiles.map fun (name, contents) => (directory ++ [name], contents)

theorem keys_children (b : Bundle) (directory : Location) :
    (b.children directory).keys = (b.allFiles.map (·.1)).map (directory ++ [·]) := by
  rw [Table.keys, children, List.map_map, List.map_map]
  rfl

/-- Files whose names are plain are written right inside the directory. -/
theorem write_eq (working : Location) (directory : String) (disk : Disk)
    (h : ∀ name ∈ b.allFiles.map (·.1), '/' ∉ name.toList ∧ name ∉ ["", ".", ".."]) :
    b.write working directory disk = disk.putAll (b.children (resolve working directory)) := by
  rw [write, Disk.write, Table.putAll, children, List.foldl_map]
  refine List.foldl_ext _ _ _ fun disk file hfile => ?_
  obtain ⟨hslash, hname⟩ := h _ (List.mem_map_of_mem hfile)
  simp only [resolve_joinPath working directory hslash hname]

end Bundle

/-- What keeps a bundle in the directory that it is written into. -/
structure Bundle.Contained (b : Bundle) : Prop where
  /-- No two files have the same name. -/
  distinct : (b.allFiles.map (·.1)).Nodup
  /-- A name is a stem that is not empty, without dots, and a suffix of a fixed form. -/
  plain : ∀ name ∈ b.allFiles.map (·.1), ∃ (stem : String) (suffix : Suffix),
    name = stem ++ suffix.text ∧ stem ≠ "" ∧ (∀ c ∈ stem.toList, isFileChar c = true) ∧
      ∀ c ∈ suffix.text.toList, isFileChar c = true ∨ c = '.'
  /-- A name is one step from any directory. -/
  single : ∀ name ∈ b.allFiles.map (·.1), ∀ working directory,
    resolve working (joinPath directory name) = resolve working directory ++ [name]
  /-- Besides the manifest there are the stage files, each right inside the directory. -/
  counted : ∀ directory, (b.children directory).length = b.files.length + 1 ∧
    (b.children directory).keys.Nodup
  /-- Writing gives these files their contents and leaves all others alone. -/
  written : ∀ working directory disk location,
    (b.write working directory disk).get? location =
      ((b.children (resolve working directory)).get? location).or (disk.get? location)
  /-- The manifest lists the names of the stage files in order. -/
  listed : ∃ members : List (String × Json),
    b.manifest = (Json.object members).pretty ∧ (members.map (·.1)).Nodup ∧
      ("files", Json.array ((b.files.map (·.1)).map Json.string)) ∈ members
  /-- Who reads the manifest finds the same list. -/
  legible : ∃ members : List (String × Json),
    Json.ofText? b.manifest = some (.object members) ∧ (members.map (·.1)).Nodup ∧
      ("files", Json.array ((b.files.map (·.1)).map Json.string)) ∈ members

/-- The bundle of a graph is that of the program it compiles to. -/
theorem Artifact.bundle_eq_ok : (a.bundle g context).2.2 = .ok b ↔
    ∃ left p, a.backend.compile g context = (left, .ok p) ∧ b = Bundle.of g.name p := by
  have hbundle : (a.bundle g context).2.2 =
      (a.backend.compile g context).2.map (Bundle.of g.name) := by
    unfold Artifact.bundle Artifact.compile
    obtain ⟨left, result⟩ := a.backend.compile g context
    cases result <;> rfl
  rw [hbundle, map_eq_ok]
  constructor
  · rintro ⟨p, hp, rfl⟩
    exact ⟨_, p, Prod.ext rfl hp, rfl⟩
  · rintro ⟨left, p, hp, rfl⟩
    exact ⟨p, congrArg Prod.snd hp, rfl⟩

/-- The names of a bundle are its stem with the suffixes of the files. -/
theorem Bundle.names_of (graph : String) (p : Program) :
    (Bundle.of graph p).allFiles.map (·.1) =
      (p.suffixes ++ [Suffix.manifest]).map (fileStem graph ++ ·.text) := by
  rw [allFiles, List.map_append, List.map_append]
  show (p.files (fileStem graph)).map (·.1) ++ _ = _
  rw [p.names_files]
  rfl

/-- What starts with a stem leads somewhere. -/
theorem stem_append_plain (graph : String) (suffix : Suffix) :
    '/' ∉ (fileStem graph ++ suffix.text).toList ∧
      fileStem graph ++ suffix.text ∉ ["", ".", ".."] := by
  constructor
  · rw [String.toList_append, List.mem_append]
    rintro (hmem | hmem)
    · exact absurd (isFileChar_of_mem_fileStem hmem) (by decide)
    · rcases Suffix.isFileChar_of_mem_text hmem with h | h
      · exact absurd h (by decide)
      · exact absurd h (by decide)
  · -- the first character is one of the stem, so it is no dot
    obtain ⟨c, cs, hstem⟩ := List.exists_cons_of_ne_nil
      (mt String.toList_eq_nil_iff.mp (fileStem_ne_empty graph))
    have hc : isFileChar c = true :=
      isFileChar_of_mem_fileStem (hstem ▸ List.mem_cons_self)
    have hhead : (fileStem graph ++ suffix.text).toList.head? = some c := by
      rw [String.toList_append, hstem]
      rfl
    intro hmem
    simp only [List.mem_cons, List.not_mem_nil, or_false] at hmem
    rcases hmem with h | h | h <;> rw [h] at hhead <;> cases hhead <;> exact absurd hc (by decide)

theorem Program.keys_manifest (p : Program) :
    (["graph", "backend", "files", "params", "time_dependent"] ++
      p.details.map (·.1)).Nodup := by
  cases p <;> simp [Program.details]

/-- A manifest is an object with different keys, one of which lists the files. -/
theorem Program.exists_members_manifest (p : Program) (graph : String) (files : List String) :
    ∃ members : List (String × Json), p.manifest graph files = .object members ∧
      (members.map (·.1)).Nodup ∧ ("files", Json.array (files.map Json.string)) ∈ members := by
  refine ⟨_, rfl, ?_, ?_⟩
  · rw [List.map_append]
    exact p.keys_manifest
  · simp [textsJson]

/-- **A bundle stays inside its directory.**  Whatever a graph is called and whichever backend
    compiles it, the stage files and the manifest have different names of fixed forms, each of
    which leads one step down from the directory.  Writing makes just these files, and the
    manifest lists the stage files in order, also for who reads it. -/
theorem Artifact.contained_of_bundle (h : (a.bundle g context).2.2 = .ok b) : b.Contained := by
  obtain ⟨left, p, hcompile, rfl⟩ := Artifact.bundle_eq_ok.mp h
  have hnames := Bundle.names_of g.name p
  have hdistinct : ((Bundle.of g.name p).allFiles.map (·.1)).Nodup := by
    rw [hnames]
    refine List.Nodup.map (fun s s' hs => ?_) (Program.nodup_suffixes hcompile)
    have hlist := congrArg String.toList hs
    simp only [String.toList_append, List.append_cancel_left_eq] at hlist
    exact Suffix.text_injective (String.toList_injective hlist)
  have hplain : ∀ name ∈ (Bundle.of g.name p).allFiles.map (·.1), ∃ suffix : Suffix,
      name = fileStem g.name ++ suffix.text := by
    intro name hname
    rw [hnames] at hname
    obtain ⟨suffix, -, rfl⟩ := List.mem_map.mp hname
    exact ⟨suffix, rfl⟩
  have hsingle : ∀ name ∈ (Bundle.of g.name p).allFiles.map (·.1),
      '/' ∉ name.toList ∧ name ∉ ["", ".", ".."] := by
    intro name hname
    obtain ⟨suffix, rfl⟩ := hplain name hname
    exact stem_append_plain g.name suffix
  have hchildren : ∀ directory, ((Bundle.of g.name p).children directory).keys.Nodup := by
    intro directory
    rw [Bundle.keys_children]
    exact hdistinct.map fun name name' hnames => by simpa using hnames
  obtain ⟨members, hmanifest, hkeys, hfiles⟩ :=
    p.exists_members_manifest g.name ((p.files (fileStem g.name)).map (·.1))
  exact {
    distinct := hdistinct
    plain := by
      intro name hname
      obtain ⟨suffix, rfl⟩ := hplain name hname
      exact ⟨fileStem g.name, suffix, rfl, fileStem_ne_empty g.name,
        fun c => isFileChar_of_mem_fileStem, fun c => Suffix.isFileChar_of_mem_text⟩
    single := fun name hname working directory =>
      resolve_joinPath working directory (hsingle name hname).1 (hsingle name hname).2
    counted := fun directory => ⟨by simp [Bundle.children, Bundle.allFiles], hchildren directory⟩
    written := by
      intro working directory disk location
      rw [Bundle.write_eq working directory disk hsingle]
      exact Table.get?_putAll (hchildren _)
    listed := ⟨members, congrArg Json.pretty hmanifest, hkeys, hfiles⟩
    legible := by
      have hread := Bundle.ofText?_manifest g.name p
      rw [hmanifest, Json.asRead] at hread
      have hperm := Json.perm_asRead_members hkeys
      refine ⟨_, hread, ?_, ?_⟩
      · rw [(hperm.map (·.1)).nodup_iff, List.map_map]
        exact hkeys
      · have hlist := hperm.mem_iff.mpr (List.mem_map_of_mem hfiles)
        rw [Json.asRead, Json.asReadItems_strings] at hlist
        exact hlist }

/-- Particles that drift as old as they are, in a graph whose name points elsewhere. -/
def escaping : Graph where
  name := "../up/glow"
  nodes := [.make ⟨0⟩ "age" (.attribute "age" .float), .make ⟨1⟩ "output" (.output .particles)]
  connections := [⟨⟨0⟩, ⟨0⟩, "value", ⟨1⟩, "velocity"⟩]
  version := 3
  error := none

/-- Two state textures are written beside the manifest. -/
theorem bundle_escaping : ∃ b, ((Artifact.new .particles).bundle escaping {}).2.2 = .ok b ∧
    b.allFiles.map (·.1) =
      ["___up_glow.sim0.frag", "___up_glow.sim1.frag", "___up_glow.json"] ∧ b.Contained := by
  have hsteps : (Particles.allocate {} escaping {} >>= fun table =>
      ((Backend.particles table).pass escaping {}).map fun _ => table.textures.length) =
        .ok 2 := by decide +kernel
  obtain ⟨table, htable, hpass⟩ := bind_eq_ok.mp hsteps
  obtain ⟨p, hp, hlength⟩ := map_eq_ok.mp hpass
  obtain ⟨kept, hcompile, hallocations, -⟩ := Backend.compile_particles htable hp
  have hbundle : ((Artifact.new .particles).bundle escaping {}).2.2 =
      .ok (Bundle.of escaping.name (.particles kept)) :=
    Artifact.bundle_eq_ok.mpr ⟨_, _, hcompile, rfl⟩
  refine ⟨_, hbundle, ?_, Artifact.contained_of_bundle hbundle⟩
  have hsuffixes : (Program.particles kept).suffixes = [.simulation 0, .simulation 1] := by
    have hindices : kept.shaders.map (·.index) = [0, 1] := by
      rw [ParticlesProgram.indices_of_compile hcompile, hallocations, hlength]
      rfl
    rw [Program.suffixes_particles, hindices]
    rfl
  rw [Bundle.names_of, hsuffixes]
  decide +kernel

end ShaderFlow
