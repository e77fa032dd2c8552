import NovelScript.Proofs.Bytecode.Renumbering
import NovelScript.Proofs.Script.Labels
import NovelScript.Proofs.Script.Oversized

/-!
# How compiled code is linked

In the program of a tree every brace is placed once, and braces that belong together are linked to
each other.  Each label name has one marker, which is linked to itself if the tree declares the
label.  No other marker is linked (`Program.Wired`).

In a compiled script a link is the word at which its marker is placed.  Every link of such a program
leads to a marker that is placed, so the links are found again (`Program.KeepsLinks`), whatever
becomes of the texts.
-/

namespace NovelScript

namespace Program

variable {program : Program}

/-! ## Labels and links -/

/-- The marker that the marker at a position is linked to. -/
def linkAt? (program : Program) (id : ElementId) : Option ElementId :=
  (program.marker? id).bind Marker.link

/-- The markers that the code places, in order. -/
def labelIds (program : Program) : List ElementId :=
  program.instructions.filterMap Instruction.placed?

/-- The elements that the code passes to functions, in order. -/
def argumentIds (program : Program) : List ElementId :=
  program.instructions.flatMap Instruction.arguments

/-- The braces in the code that belong together by nesting, if they are balanced. -/
def bracePairs? (program : Program) : Option (List (ElementId × ElementId)) :=
  bracePairs [] (program.labelIds.map fun id =>
    (id, (program.marker? id).bind fun m => brace? m.name))

/-- The marker is what a placement asks for, if `labelAt` has the labels by name. -/
def Stands (program : Program) (labelAt : String → Option ElementId) (id : ElementId) :
    Placement → Prop
  | .opens => ∃ m, program.marker? id = some m ∧ m.name = blockOpen
  | .closes => ∃ m, program.marker? id = some m ∧ m.name = blockClose
  | .alternative => (∃ m, program.marker? id = some m ∧ m.name = elseLabel ∧ m.link = none)
    ∧ ∀ name, labelAt name ≠ some id
  | .declares name => labelAt name = some id

/-- The labels of a program are those of a tree, where `labelAt` has its labels by name, and they
are linked as they should be. -/
structure Wired (program : Program) (tree : List Statement)
    (labelAt : String → Option ElementId) : Prop where
  /-- Every brace is placed once. -/
  once : ∀ id m, program.marker? id = some m → (brace? m.name).isSome = true →
    program.instructions.count (.label id) = 1
  /-- Braces that belong together are linked to each other. -/
  joined : ∃ pairs, program.bracePairs? = some pairs ∧ ∀ pair ∈ pairs,
    program.linkAt? pair.1 = some pair.2 ∧ program.linkAt? pair.2 = some pair.1
  /-- The markers in the code are those of the tree, in order. -/
  placed : List.Forall₂ (program.Stands labelAt) program.labelIds (Statement.placementsList tree)
  /-- A marker that is passed to a function is an operator, or the label of its name. -/
  cited : ∀ id ∈ program.argumentIds, ∀ m, program.marker? id = some m →
    isOperator m.name = true ∨ labelAt m.name = some id
  /-- The labels that the tree refers to are passed to functions. -/
  refers : ∀ name ∈ Statement.labelRefsList tree, ∃ id ∈ program.argumentIds,
    labelAt name = some id
  /-- A label is linked to itself if the tree declares it, and not at all otherwise. -/
  label : ∀ name id, labelAt name = some id → ∃ m, program.marker? id = some m ∧ m.name = name
    ∧ m.link = if .declares name ∈ Statement.placementsList tree then some id else none
  /-- Operators are not linked. -/
  operator : ∀ id m, program.marker? id = some m → isOperator m.name = true → m.link = none
  /-- Links lead to markers that are placed. -/
  targets : ∀ id target, program.linkAt? id = some target → .label target ∈ program.instructions

theorem marker?_eq_some {id : ElementId} {m : Marker} :
    program.marker? id = some m ↔ program.elements[id]? = some (.marker m) := by
  rw [marker?, Option.bind_eq_some_iff]
  constructor
  · rintro ⟨e, he, hm⟩
    rw [he, Element.eq_of_marker? hm]
  · exact fun h => ⟨_, h, rfl⟩

theorem linkAt?_eq {id : ElementId} {m : Marker} (h : program.marker? id = some m) :
    program.linkAt? id = m.link := by
  rw [linkAt?, h, Option.bind_some]

/-- A label is placed as often as its marker is among the labels of the code. -/
theorem count_label (program : Program) (id : ElementId) :
    program.instructions.count (.label id) = program.labelIds.count id := by
  rw [labelIds, List.count_filterMap, List.count_eq_countP]
  refine List.countP_congr fun i _ => ?_
  cases i <;> simp [Instruction.placed?]

end Program

/-! ## Compiled programs -/

namespace Draft

variable {d : Draft} {code : Code} {names : List String}

/-- Whether a marker is a brace is said by its name and by what it stands for. -/
theorem Places.brace?_eq {id : ElementId} {placement : Placement} (h : d.Places id placement)
    (htidy : d.Tidy) : ∃ m, d.elements[id]? = some (.marker m)
      ∧ brace? m.name = placement.brace? := by
  cases placement with
  | opens =>
    obtain ⟨m, hm, hname⟩ := h
    exact ⟨m, hm, by rw [hname]; decide⟩
  | closes =>
    obtain ⟨m, hm, hname⟩ := h
    exact ⟨m, hm, by rw [hname]; decide⟩
  | alternative =>
    obtain ⟨⟨m, hm, hname, -⟩, -⟩ := h
    exact ⟨m, hm, by rw [hname]; decide⟩
  | declares name =>
    obtain ⟨hname, m, hm, rfl, -⟩ := htidy.label h
    exact ⟨m, hm, brace?_eq_none hname⟩

/-- Labels are found by name. -/
theorem Tidy.lookup_eq_some_iff (h : d.Tidy) {name : String} {id : ElementId} :
    d.labels.lookup name = some id ↔ (name, id) ∈ d.labels := by
  refine ⟨Compile.mem_of_lookup, fun hlabel => ?_⟩
  cases hlookup : d.labels.lookup name with
  | none =>
    have hnone := List.lookup_eq_none_iff.mp hlookup _ hlabel
    simp at hnone
  | some id' => rw [h.alone (Compile.mem_of_lookup hlookup) hlabel]

/-- The label of a name is linked to itself or not at all. -/
theorem Tidy.link_eq (h : d.Tidy) {m : Marker} {id : ElementId} (hlabel : (m.name, id) ∈ d.labels)
    (hm : d.elements[id]? = some (.marker m)) :
    m.link = some id ∧ d.LinksLabel m.name ∨ m.link = none ∧ ¬ d.LinksLabel m.name := by
  obtain ⟨-, m', hm', -, hlink⟩ := h.label hlabel
  obtain rfl := Element.marker.inj (Option.some.inj (hm.symm.trans hm'))
  rcases hlink with hnone | hself
  · refine .inr ⟨hnone, ?_⟩
    rintro ⟨id', other, hlabel', hother, hlink⟩
    rw [h.alone hlabel hlabel', hm] at hother
    rw [← Element.marker.inj (Option.some.inj hother), hnone] at hlink
    cases hlink
  · exact .inl ⟨hself, id, m, hlabel, hm, hself⟩

section

variable {marks : List (ElementId × Placement)} {cited : List ElementId} {maxLocals : Nat}
  (h : Draft.Wires {} cited marks names d)
  (hcode : marks.map Prod.fst = code.filterMap Instruction.placed?)

include hcode in
theorem mem_of_mem_marks {mark : ElementId × Placement} (hmark : mark ∈ marks) :
    .label mark.1 ∈ code := by
  have hmem := hcode ▸ List.mem_map_of_mem hmark
  obtain ⟨i, hi, hplaced⟩ := List.mem_filterMap.mp hmem
  cases i with
  | label id => exact Option.some.inj hplaced ▸ hi
  | call | target => cases hplaced

include h

/-- Of nothing, those labels become linked that are declared. -/
theorem Wires.linksLabel_iff (name : String) :
    d.LinksLabel name ↔ .declares name ∈ marks.map Prod.snd := by
  rw [h.links, or_iff_right]
  rintro ⟨_, _, hnone, -⟩
  exact List.not_mem_nil hnone

/-- A label is linked if it is declared, and not otherwise. -/
theorem Wires.label_eq {name : String} {id : ElementId} (hlabel : (name, id) ∈ d.labels) :
    ∃ m, d.elements[id]? = some (.marker m) ∧ m.name = name
      ∧ m.link = if .declares name ∈ marks.map Prod.snd then some id else none := by
  obtain ⟨-, m, hm, rfl, -⟩ := h.tidy.label hlabel
  refine ⟨m, hm, rfl, ?_⟩
  rcases h.tidy.link_eq hlabel hm with ⟨hlink, hdeclared⟩ | ⟨hlink, hdeclared⟩
  · rw [hlink, if_pos ((h.linksLabel_iff m.name).mp hdeclared)]
  · rw [hlink, if_neg (mt (h.linksLabel_iff m.name).mpr hdeclared)]

include hcode

/-- Every brace is placed once. -/
theorem Wires.count_brace {id : ElementId} {m : Marker} (hm : d.elements[id]? = some (.marker m))
    (hbrace : (brace? m.name).isSome = true) : code.count (.label id) = 1 := by
  have hcount := h.once hm hbrace
  rw [hcode] at hcount
  exact (Program.count_label ⟨d.elements, code, 0⟩ id).trans
    (hcount.trans (if_neg (Nat.not_lt_zero id)))

/-- What a marker is linked to is placed. -/
theorem Wires.mem_code_of_link {id target : ElementId} {m : Marker}
    (hm : d.elements[id]? = some (.marker m)) (hlink : m.link = some target) :
    .label target ∈ code := by
  rcases h.tidy.linked hm hlink with hlabel | ⟨m', hm', hbrace⟩
  · -- a label that is linked is declared, so its marker stands where it is declared
    rcases h.tidy.link_eq hlabel hm with ⟨hself, hdeclared⟩ | ⟨hnone, -⟩
    · obtain rfl := Option.some.inj (hself.symm.trans hlink)
      obtain ⟨⟨id', placement⟩, hmark, rfl⟩ :=
        List.mem_map.mp ((h.linksLabel_iff m.name).mp hdeclared)
      obtain rfl := h.tidy.alone hlabel (h.places _ hmark)
      exact mem_of_mem_marks hcode hmark
    · rw [hnone] at hlink
      cases hlink
  · have hcount := h.count_brace hcode hm' hbrace
    exact List.count_pos_iff.mp (by rw [hcount]; exact Nat.one_pos)

/-- Braces that belong together are linked to each other. -/
theorem Wires.exists_bracePairs :
    ∃ pairs, Program.bracePairs? ⟨d.elements, code, maxLocals⟩ = some pairs
      ∧ ∀ pair ∈ pairs, d.Joins pair := by
  obtain ⟨pairs, hpairs, hmatch⟩ := h.joins
  refine ⟨pairs, ?_, hpairs⟩
  have hbraces := hmatch [] []
  rw [List.append_nil, bracePairs, Option.map_some, List.append_nil] at hbraces
  rw [Program.bracePairs?, Program.labelIds, ← hcode, List.map_map, ← hbraces, braceMarks]
  congr 1
  refine List.map_congr_left fun mark hmark => ?_
  obtain ⟨m, hm, hbrace⟩ := (h.places mark hmark).brace?_eq h.tidy
  rw [Function.comp_apply, Program.marker?_eq_some.mpr hm, Option.bind_some, hbrace]

end

/-- A marker of the draft is what its placement asks for in the program. -/
theorem Places.stands {maxLocals : Nat} {id : ElementId} {placement : Placement}
    (h : d.Places id placement) (htidy : d.Tidy) :
    Program.Stands ⟨d.elements, code, maxLocals⟩ (fun name => d.labels.lookup name) id
      placement := by
  cases placement with
  | opens | closes =>
    obtain ⟨m, hm, hname⟩ := h
    exact ⟨m, Program.marker?_eq_some.mpr hm, hname⟩
  | alternative =>
    obtain ⟨⟨m, hm, hname, hlink⟩, hnone⟩ := h
    exact ⟨⟨m, Program.marker?_eq_some.mpr hm, hname, hlink⟩,
      fun name hlookup => hnone name (Compile.mem_of_lookup hlookup)⟩
  | declares name => exact htidy.lookup_eq_some_iff.mpr h

/-- The code that is laid for a tree from nothing makes a wired program. -/
theorem Lays.wired {tree : List Statement} {maxLocals : Nat}
    (h : Draft.Lays {} code (Statement.placementsList tree) (Statement.labelRefsList tree) d) :
    Program.Wired ⟨d.elements, code, maxLocals⟩ tree fun name => d.labels.lookup name := by
  obtain ⟨marks, hcode, hplacements, hwires⟩ := h
  have htidy := hwires.tidy
  exact {
    once := fun id m hm hbrace => hwires.count_brace hcode (Program.marker?_eq_some.mp hm) hbrace
    joined := by
      obtain ⟨pairs, hmatch, hpairs⟩ := hwires.exists_bracePairs hcode
      refine ⟨pairs, hmatch, fun pair hpair => ?_⟩
      obtain ⟨⟨m, hm, -, hlink⟩, m', hm', -, hlink'⟩ := hpairs pair hpair
      rw [Program.linkAt?_eq (Program.marker?_eq_some.mpr hm),
        Program.linkAt?_eq (Program.marker?_eq_some.mpr hm')]
      exact ⟨hlink, hlink'⟩
    placed := by
      rw [Program.labelIds, ← hcode, ← hplacements, List.forall₂_map_left_iff,
        List.forall₂_map_right_iff, List.forall₂_same]
      exact fun mark hmark => (hwires.places mark hmark).stands htidy
    cited := fun id hid m hm => by
      obtain ⟨e, he, hcited⟩ := hwires.cites id hid
      rw [Program.marker?_eq_some] at hm
      obtain rfl := Option.some.inj (he.symm.trans hm)
      exact (hcited m rfl).imp (fun h => (htidy.operator h).1) htidy.lookup_eq_some_iff.mpr
    refers := fun name hname => by
      obtain ⟨id, hid, hlabel⟩ := hwires.refers name hname
      exact ⟨id, hid, htidy.lookup_eq_some_iff.mpr hlabel⟩
    label := fun name id hlookup => by
      obtain ⟨m, hm, hname, hlink⟩ := hwires.label_eq (htidy.lookup_eq_some_iff.mp hlookup)
      exact ⟨m, Program.marker?_eq_some.mpr hm, hname, hplacements ▸ hlink⟩
    operator := fun id m hm hname => by
      rw [Program.marker?_eq_some] at hm
      obtain ⟨-, m', hm', -, hlink⟩ := htidy.operator (htidy.remembered hm hname)
      obtain rfl := Element.marker.inj (Option.some.inj (hm.symm.trans hm'))
      exact hlink
    targets := fun id target htarget => by
      obtain ⟨m, hm, hlink⟩ := Option.bind_eq_some_iff.mp htarget
      exact hwires.mem_code_of_link hcode (Program.marker?_eq_some.mp hm) hlink }

end Draft

/-- A compiled program is wired. -/
theorem exists_wired_of_compile {strings : Option StringTable} {tree : List Statement}
    {program : Program} (h : (compile strings tree).result = .ok program) :
    ∃ labelAt, program.Wired tree labelAt := by
  have hends := Compile.statements_lays strings tree {} Draft.tidy_empty
  unfold compile at h
  rcases hrun : ((Compile.statements strings tree).run.run {} : Except ScriptError Code × Draft)
    with ⟨r, d⟩
  simp only [hrun] at h
  cases r with
  | error e => simp [Except.map] at h
  | ok code =>
    obtain rfl := Except.ok.inj h
    exact ⟨_, ((hends.of_run hrun).1 code rfl).wired⟩

/-! ## Compiled scripts -/

namespace Program

variable {program : Program}

/-- The program that is read has the markers of another one at the same instructions, and these are
linked in the same way. -/
structure KeepsLinks (program read : Program) (number : ElementId → ElementId) : Prop where
  instructions_eq : read.instructions = program.instructions.map (Instruction.renamed number)
  /-- Markers stay markers, and nothing else becomes one. -/
  isSome_marker? : ∀ id ∈ program.references,
    (read.marker? (number id)).isSome = (program.marker? id).isSome
  /-- A marker is not mixed up with another element. -/
  apart : ∀ id ∈ program.references, (program.marker? id).isSome = true →
    ∀ other ∈ program.references, number other = number id → other = id
  linkAt?_eq : ∀ id ∈ program.references,
    read.linkAt? (number id) = (program.linkAt? id).map number

/-- Whether an element is a marker is said by its kind. -/
theorem isSome_marker?_eq {x y : Option Element} (h : x.map Element.tag = y.map Element.tag) :
    (x.bind Element.marker?).isSome = (y.bind Element.marker?).isSome := by
  cases x with
  | none => rw [Option.map_eq_none_iff.mp h.symm]
  | some e =>
    obtain ⟨e', rfl, htag⟩ := Option.map_eq_some_iff.mp h.symm
    cases e <;> cases e' <;> first | rfl | exact absurd htag (by simp [Element.tag])

/-- A table of relinked slots keeps links that lead to markers which are placed. -/
theorem Relinks.keepsLinks {spell : String → String} {table : Array Element}
    (h : program.Relinks spell table)
    (htargets : ∀ id target, program.linkAt? id = some target →
      .label target ∈ program.instructions) :
    program.KeepsLinks
      ⟨table, program.instructions.map (Instruction.renamed program.slot), program.maxLocals⟩
      program.slot where
  instructions_eq := rfl
  isSome_marker? id hid := isSome_marker?_eq (h.matches id hid)
  apart id hid hmarker other hother heq := by
    obtain ⟨m, hm⟩ := Option.isSome_iff_exists.mp hmarker
    have hsame := (slot_eq_iff hid hother).mp heq.symm
    exact (eq_of_sameSlot_marker (marker?_eq_some.mp hm) hsame).symm
  linkAt?_eq id hid := by
    have hsome := isSome_marker?_eq (h.matches id hid)
    cases hm : program.marker? id with
    | none =>
      -- what is no marker has no link
      rw [← marker?, hm, Option.isSome_none, Option.isSome_eq_false_iff, Option.isNone_iff_eq_none]
        at hsome
      rw [linkAt?, linkAt?, hm, marker?, hsome]
      rfl
    | some m =>
      obtain ⟨first, hfirst, hsame⟩ := exists_slot hid
      rw [marker?_eq_some] at hm
      -- a marker opens a slot of its own
      obtain rfl := eq_of_sameSlot_marker hm hsame
      obtain ⟨e, number, he, htable⟩ := h.element _ id hfirst
      rw [getElem?_placed, hm, Option.map_some, placeElement_marker] at he
      obtain rfl := Option.some.inj he
      rw [linkAt?_eq (marker?_eq_some.mpr htable), linkAt?_eq (marker?_eq_some.mpr hm)]
      cases hlink : m.link with
      | none => rfl
      | some target =>
        have htarget := htargets id target ((linkAt?_eq (marker?_eq_some.mpr hm)).trans hlink)
        obtain ⟨word, hword⟩ := Option.isSome_iff_exists.mp (labelWord?_isSome.mpr htarget)
        rw [Option.bind_some, hword]
        rfl

/-- A wired program is assembled into a script that is read with the same links. -/
theorem Wired.keepsLinks {tree : List Statement} {labelAt : String → Option ElementId}
    (h : program.Wired tree labelAt) {settings : Settings} {bytes : Bytes}
    (hassemble : program.assemble settings = .ok bytes) (hlength : bytes.length < 4294967296) :
    ∃ read number, disassemble bytes settings = .ok read ∧ program.KeepsLinks read number := by
  obtain ⟨table, hread, htable⟩ := exists_table_of_assemble_respelled hassemble hlength
  exact ⟨_, _, hread, htable.keepsLinks h.targets⟩

end Program

/-- **Compiled code is linked as its tree is nested and labelled, and stays so.**  The program of a
tree is wired, and whenever it is assembled, to less than 4 GiB, the compiled script is read as a
program with the same links at the same instructions. -/
theorem links_of_compile {strings : Option StringTable} {tree : List Statement}
    {program : Program} (h : (compile strings tree).result = .ok program) :
    (∃ labelAt, program.Wired tree labelAt)
      ∧ ∀ settings bytes, program.assemble settings = .ok bytes → bytes.length < 4294967296 →
        ∃ read number, Program.disassemble bytes settings = .ok read
          ∧ program.KeepsLinks read number := by
  obtain ⟨labelAt, hwired⟩ := exists_wired_of_compile h
  exact ⟨⟨labelAt, hwired⟩, fun _ _ hassemble hlength => hwired.keepsLinks hassemble hlength⟩

/-- A second body that declares a label under the name of the marker in front of it, a reference in
front of its declaration, and one to a label that is nowhere declared. -/
def crossing : List Statement :=
  [.bodyCall "menu" [.labelRef "else", .labelRef "gone"]
    [.conditional (.operation [.var (.flag .flag 1), .integer 2] ["<"]) [.block []]
      (some [.label "else", .call "jump" [.labelRef "else"]])]]

theorem links_of_compile_crossing : ∃ program bytes,
    (compile none crossing).result = .ok program ∧ program.assemble {} = .ok bytes
      ∧ bytes.length < 4294967296 ∧ (∃ labelAt, program.Wired crossing labelAt)
      ∧ ∃ read number, Program.disassemble bytes {} = .ok read
        ∧ program.KeepsLinks read number := by
  have hok : (compile none crossing).result.toOption.any (fun program =>
      (program.assemble {}).toOption.any (·.length < 4294967296)) = true := by
    decide +kernel
  obtain ⟨program, hcompile, hok⟩ := exists_ok_of_any hok
  obtain ⟨bytes, hassemble, hlength⟩ := exists_ok_of_any hok
  have hlength := of_decide_eq_true hlength
  obtain ⟨hwired, hkeeps⟩ := links_of_compile hcompile
  exact ⟨program, bytes, hcompile, hassemble, hlength, hwired, hkeeps {} bytes hassemble hlength⟩

/-- The program of a call whose name takes up 4 GiB is assembled, and the name survives, but what is
assembled is read as no program. -/
theorem not_links_of_compile : ∃ program bytes,
    (compile (some .empty) (Script.calling (Script.longName 4294967295)).statements).result
        = .ok program
      ∧ program.assemble {} = .ok bytes
      ∧ (∀ t ∈ Statement.textsList .empty
          (Script.calling (Script.longName 4294967295)).statements,
        Encoding.shiftJis.Survives t)
      ∧ ¬ ∃ read, Program.disassemble bytes {} = .ok read := by
  obtain ⟨octets, hoctets, hlength⟩ := Script.encodeTerminated_longName 4294967295
  refine ⟨_, _, Script.compile_calling (Script.longName_ne _), Script.assemble_callOf hoctets,
    ?_, ?_⟩
  · simp only [Script.textsList_calling, List.forall_mem_singleton, Script.survives_longName]
  · rw [Script.disassemble_callOf hlength]
    rintro ⟨read, hread⟩
    cases hread

end NovelScript
