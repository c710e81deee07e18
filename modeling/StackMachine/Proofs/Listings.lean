import StackMachine.CommandLine.Response
import StackMachine.Proofs.Disassembly
import StackMachine.Proofs.Registration
import StackMachine.Proofs.Switches

/-!
# Listings of many programs

The lines on a program can always be made if the checker accepts the program and its run succeeds (`exists_block`). In a
registry that holds nothing else, a registered name has the same lines whatever names stand in front of it
(`Succeeds.linesOn_compile`), although all of them share one cache. So the lines on registered names are those on each
name one after the other (`Succeeds.blocks_of_registered`), and a name that is not registered takes away the lines on the
names in front of it (`Succeeds.blocks_of_unregistered`). The default registry is such a registry, and the answer to a
command line has either all lines or none (`respond_all_or_nothing`).
-/

namespace StackMachine

open Validation

/-! ### The lines on one program -/

namespace Listing

theorem exists_annotation {item : Item} (h : item.WellFormed) : ∃ note, annotation item = .ok note := by
  cases item with
  | unknown | stray => exact h.elim
  | instruction i =>
    unfold annotation
    dsimp only [Item.code?]
    split <;> exact ⟨_, rfl⟩

theorem exists_body {items : List Item} (h : ∀ item ∈ items, item.WellFormed) (texts : List String) :
    ∃ lines, body texts items = .ok lines := by
  induction items generalizing texts with
  | nil => cases texts <;> exact ⟨[], rfl⟩
  | cons item items ih =>
    obtain ⟨hitem, hitems⟩ := List.forall_mem_cons.mp h
    cases texts with
    | nil => exact ⟨[], rfl⟩
    | cons text texts =>
      obtain ⟨note, hnote⟩ := exists_annotation hitem
      obtain ⟨lines, hlines⟩ := ih hitems texts
      simp only [body, hnote, hlines, Except.map]
      exact ⟨_, rfl⟩

end Listing

namespace CommandLine

/-- A program that the checker accepts and that succeeds has lines, whether its run is to be shown or not. -/
theorem exists_block {p : Program} (hp : p.IsAccepted) {value : Int} {s : State} (h : p.outcome = .halted value s)
    (settings : Settings) : ∃ lines, block settings p = .ok lines := by
  obtain ⟨summary, hp⟩ := hp
  have hwf := (wellFormed_of_accepted hp).2
  obtain ⟨lines, hlines⟩ := Listing.exists_body hwf p.disassemble
  have hrun : p.run.outcome = .halted value s := h
  have hwritable : p.isWritable = true := Program.isWritable_of_passes (passes_iff.mpr hwf)
  simp only [block, Program.listing, hwritable, ↓reduceIte, hlines, Run.lines, hrun]
  split <;> exact ⟨_, rfl⟩

end CommandLine

/-! ### Registries whose programs succeed -/

namespace Registry

open CommandLine

variable {r : Registry}

/-- The registry is sound, and all its programs succeed. -/
structure Succeeds (r : Registry) : Prop where
  sound : r.Sound
  halts {name : String} {items : List Item} :
    r.templates[name]? = some items → ∃ value s, (⟨name, items⟩ : Program).outcome = .halted value s

/-- The lines on a name alone; none if it is not registered. -/
def linesOn (r : Registry) (run trace : Bool) (name : String) : List String :=
  match (r.compile name).2 with
  | .ok p => (block { run := run, trace := trace } p).toOption.getD []
  | .error _ => []

namespace Succeeds

theorem compile (hr : r.Succeeds) (name : String) : (r.compile name).1.Succeeds where
  sound := hr.sound.compile name
  halts h := hr.halts (by rwa [compile_templates] at h)

theorem block_eq (hr : r.Succeeds) {name : String} (hname : name ∈ r.names) :
    ∃ p, p.name = name ∧ (r.compile name).2 = .ok p ∧
      ∀ settings : Settings, block settings p = .ok (r.linesOn settings.run settings.trace name) := by
  obtain ⟨items, hitems⟩ := Option.isSome_iff_exists.mp (mem_names.mp hname)
  have hcompile : (r.compile name).2 = .ok ⟨name, items⟩ := by rw [hr.sound.compile_snd, hitems]
  obtain ⟨value, s, ho⟩ := hr.halts hitems
  refine ⟨⟨name, items⟩, rfl, hcompile, fun settings => ?_⟩
  obtain ⟨lines, hlines⟩ := exists_block (hr.sound.template hitems).2 ho settings
  have hflags : block { run := settings.run, trace := settings.trace } ⟨name, items⟩ = .ok lines := hlines
  simp only [hlines, linesOn, hcompile, hflags]
  rfl

theorem linesOn_compile (hr : r.Succeeds) (run trace : Bool) (name n : String) :
    (r.compile name).1.linesOn run trace n = r.linesOn run trace n := by
  rw [linesOn, linesOn, (hr.sound.compile name).compile_snd, hr.sound.compile_snd, compile_templates, names_compile]

/-- A registered name adds its lines, and the names behind it find the same templates. -/
theorem blocks_cons (hr : r.Succeeds) {name : String} (hname : name ∈ r.names) (settings : Settings)
    (rest : List String) :
    blocks settings r (name :: rest) =
      (blocks settings (r.compile name).1 rest).map (r.linesOn settings.run settings.trace name ++ ·) := by
  obtain ⟨p, -, hcompile, hblock⟩ := hr.block_eq hname
  rcases h : r.compile name with ⟨r', result⟩
  obtain rfl : result = .ok p := by rw [← hcompile, h]
  simp only [blocks, h, hblock]
  cases blocks settings r' rest <;> rfl

/-- What comes behind registered names is up to a registry with the same templates. -/
theorem blocks_append (hr : r.Succeeds) {known : List String} (hknown : ∀ name ∈ known, name ∈ r.names)
    (settings : Settings) (rest : List String) :
    ∃ r' : Registry, r'.Succeeds ∧ r'.templates = r.templates ∧
      blocks settings r (known ++ rest) =
        (blocks settings r' rest).map (known.flatMap (r.linesOn settings.run settings.trace) ++ ·) := by
  induction known generalizing r with
  | nil =>
    refine ⟨r, hr, rfl, ?_⟩
    cases h : blocks settings r rest <;> simp [h, Except.map]
  | cons name known ih =>
    obtain ⟨hname, hknown⟩ := List.forall_mem_cons.mp hknown
    rw [← names_compile r name] at hknown
    obtain ⟨r', hr', ht, h⟩ := ih (hr.compile name) hknown
    refine ⟨r', hr', ht.trans (compile_templates r name), ?_⟩
    have hlines : (r.compile name).1.linesOn settings.run settings.trace = r.linesOn settings.run settings.trace :=
      funext fun n => hr.linesOn_compile _ _ name n
    rw [List.cons_append, hr.blocks_cons hname, h, hlines]
    cases blocks settings r' rest <;> simp [Except.map]

theorem blocks_of_registered (hr : r.Succeeds) {names : List String} (h : ∀ name ∈ names, name ∈ r.names)
    (settings : Settings) :
    blocks settings r names = .ok (names.flatMap (r.linesOn settings.run settings.trace)) := by
  obtain ⟨r', -, -, hblocks⟩ := hr.blocks_append h settings []
  rw [List.append_nil] at hblocks
  rw [hblocks, blocks, Except.map, List.append_nil]

/-- The first name that is not registered is the one that is reported. -/
theorem blocks_of_unregistered (hr : r.Succeeds) {known : List String} (hknown : ∀ name ∈ known, name ∈ r.names)
    {name : String} (hname : name ∉ r.names) (settings : Settings) (rest : List String) :
    blocks settings r (known ++ name :: rest) = .error (.refused (.unknownProgram name r.names)) := by
  obtain ⟨r', hr', ht, hblocks⟩ := hr.blocks_append hknown settings (name :: rest)
  have hnames : r'.names = r.names := by rw [names, names, ht]
  have hcompile : r'.compile name = (r', .error (.unknownProgram name r.names)) := by
    rw [← hnames] at hname ⊢
    exact hr'.sound.compile_of_not_mem hname
  rw [hblocks]
  simp only [blocks, hcompile, Except.map]

end Succeeds

/-! ### The default programs -/

theorem names_default : Registry.default.names = ["backend", "frontend"] := rfl

theorem succeeds_default : Registry.default.Succeeds where
  sound :=
    have h : (ofPairs true defaultPairs).1 = .ok Registry.default := rfl
    sound_of_ofPairs h
  halts {name items} h := by
    let frontend : List Instruction := [.pushStr (.text "69"), .dup, .concat, .toInt, .halt]
    let backend : List Instruction := [.pushStr (.text "420"), .pushStr (.text "69"), .concat, .toInt, .halt]
    have htemplates : Registry.default.templates =
        ((∅ : Std.TreeMap String (List Item)).insert "frontend" (frontend.map .instruction)).insert "backend"
          (backend.map .instruction) := rfl
    rw [htemplates, getElem?_insert, getElem?_insert] at h
    split at h
    · obtain rfl := Option.some.inj h
      exact ⟨42069, _, rfl⟩
    · split at h
      · obtain rfl := Option.some.inj h
        exact ⟨6969, _, rfl⟩
      · simp at h

end Registry

namespace CommandLine

/-! ### The answer -/

/-- The name of a file: nothing that leads elsewhere, and nothing that no directory can have as a name. -/
structure IsFileName (name : String) : Prop where
  noSlash : '/' ∉ name.toList
  noNul : '\x00' ∉ name.toList
  proper : name ∉ ["", ".", ".."]
  short : name.utf8ByteSize ≤ FileTree.maxNameSize

theorem IsFileName.ofString_eq {name : String} (h : IsFileName name) : Path.ofString name = ⟨0, [name]⟩ := by
  have hroot : Path.rootSlashes name = 0 := by
    have hnone : name.toList.takeWhile (· == '/') = [] := by
      cases hchars : name.toList with
      | nil => rfl
      | cons c rest =>
        have hc : c ≠ '/' := fun hc => h.noSlash (by rw [hchars, hc]; exact List.mem_cons_self)
        rw [List.takeWhile_cons_of_neg (by simpa using hc)]
    rw [Path.rootSlashes, hnone]
    rfl
  have hproper := h.proper
  simp only [List.mem_cons, List.not_mem_nil, or_false, not_or] at hproper
  rw [Path.ofString, hroot, List.splitOn_eq_singleton h.noSlash]
  simp [hproper]

/-- The name of a file leads into the working directory, unless the system has something else in this place. -/
theorem place_of_name {tree : FileTree} {name : String} (h : IsFileName name)
    (hfree : tree.entry? (Location.working.child name) = none) : (Path.ofString name).place tree = .ok (.inside name) := by
  have htext : Path.text ⟨0, [name]⟩ = name := by simp [Path.text]
  have hname : name ≠ ".." := by simpa using fun heq => h.proper (by simp [heq])
  have hshort : ¬ FileTree.maxNameSize < name.utf8ByteSize := Nat.not_lt.mpr h.short
  have hpath : ¬ FileTree.maxPathSize < name.utf8ByteSize :=
    fun hlong => hshort (Nat.lt_trans (by decide) hlong)
  rw [h.ofString_eq, Path.place, htext, if_neg (by simpa using h.noNul), if_neg hpath]
  show tree.follow Location.working [name] = _
  simp only [FileTree.follow, hname, hshort, hfree, ↓reduceIte, decide_false, Bool.false_and, Bool.false_eq_true,
    List.isEmpty_nil, FileTree.create]

/-- The system has nothing in the working directory. -/
theorem entry?_working (name : String) : FileTree.system.entry? (Location.working.child name) = none := rfl

/-- An empty path, which counts as no output file, leads to the working directory. -/
theorem place_empty (tree : FileTree) : (Path.ofString "").place tree = .error .isDirectory := rfl

theorem ofLines_of_place {settings : Settings} {path name : String} {tree : FileTree}
    (houtput : settings.output = some path) (hplace : (Path.ofString path).place tree = .ok (.inside name))
    (lines : List String) :
    Response.ofLines settings lines =
      { exit := 0, stderr := written (Path.ofString path),
        file := some (Path.ofString path, "\n".intercalate lines) } := by
  unfold Response.ofLines
  rw [houtput]
  split
  next h => cases h
  next h =>
    obtain rfl : path = "" := Option.some.inj h
    rw [place_empty] at hplace
    cases hplace
  next h =>
    obtain rfl := Option.some.inj h
    rfl

theorem ofLines_of_none {settings : Settings} (houtput : settings.output = none) (lines : List String) :
    Response.ofLines settings lines = { exit := 0, stdout := "\n".intercalate lines ++ "\n" } := by
  rw [Response.ofLines, houtput]

/-- No option that tells how programs are listed asks for their names alone. -/
theorem list_settings (switches : List Switch) : (Switch.settings switches).list = false := by
  suffices h : ∀ s : Settings, s.list = false → (switches.foldl Switch.apply s).list = false from h {} rfl
  intro s hs
  induction switches generalizing s with
  | nil => exact hs
  | cons switch switches ih =>
    apply ih
    cases switch <;> exact hs

section

variable {r : Registry} {before after : List Switch} {front back names : List String}

theorem respond_of_spelled (hfront : Spelled before front) (hback : Spelled after back)
    (hnames : ∀ name ∈ names, IsDashless name) (r : Registry) :
    respond r (front ++ names ++ back) =
      match blocks (Switch.settings (before ++ after)) r (if names.isEmpty then r.names else names) with
      | .ok lines => some (.ofLines (Switch.settings (before ++ after)) lines)
      | .error failure => failure.report?.map fun report => { exit := 1, stderr := report.text ++ "\n" } := by
  rw [respond, parse_of_spelled hfront hback hnames]
  show Request.answer r (.listing (Switch.settings (before ++ after)) names) = _
  rw [Request.answer, list_settings]
  exact if_neg Bool.false_ne_true

theorem respond_of_registered (hr : r.Succeeds) (hfront : Spelled before front) (hback : Spelled after back)
    (hnames : ∀ name ∈ names, IsDashless name) (hregistered : ∀ name ∈ names, name ∈ r.names) :
    let settings := Switch.settings (before ++ after)
    respond r (front ++ names ++ back) =
      some (.ofLines settings
        ((if names.isEmpty then r.names else names).flatMap (r.linesOn settings.run settings.trace))) := by
  intro settings
  have hasked : ∀ name ∈ (if names.isEmpty then r.names else names), name ∈ r.names := by
    split
    · exact fun _ => id
    · exact hregistered
  rw [respond_of_spelled hfront hback hnames, hr.blocks_of_registered hasked]

theorem respond_of_unregistered (hr : r.Succeeds) (hfront : Spelled before front) (hback : Spelled after back)
    (hnames : ∀ name ∈ names, IsDashless name) {name : String}
    (hfind : names.find? (· ∉ r.names) = some name) :
    (r.compile name).2 = .error (.unknownProgram name r.names) ∧
      respond r (front ++ names ++ back) =
        (Refusal.unknownProgram name r.names).report?.map fun report =>
          { exit := 1, stderr := report.text ++ "\n" } := by
  obtain ⟨hname, known, rest, rfl, hknown⟩ := List.find?_eq_some_iff_append.mp hfind
  simp only [decide_eq_true_eq, Bool.not_eq_true', decide_eq_false_iff_not, not_not] at hname hknown
  have hnonempty : (known ++ name :: rest).isEmpty = false := by simp
  constructor
  · rw [hr.sound.compile_of_not_mem hname]
  · rw [respond_of_spelled hfront hback hnames, hnonempty, if_neg Bool.false_ne_true,
      hr.blocks_of_unregistered hknown hname]
    rfl

/-- A command line that names programs, with options in front of the names and behind them, is answered for all names or
for none. If all are registered, the lines on each of them are put out in the order of the names, be it to the output or
to a file, and those on one name do not depend on the others. If not, there is nothing but the report of the first name
that is not registered. What else there is on the system does not matter. -/
theorem respond_all_or_nothing (tree : FileTree) (hfront : Spelled before front) (hback : Spelled after back)
    (hnames : ∀ name ∈ names, IsDashless name) :
    let r := Registry.default
    let settings := Switch.settings (before ++ after)
    let asked := if names.isEmpty then r.names else names
    let text := "\n".intercalate (asked.flatMap (r.linesOn settings.run settings.trace))
    r.names = ["backend", "frontend"] ∧
    (∀ name ∈ r.names, ∃ p, p.name = name ∧ (r.compile name).2 = .ok p ∧
      ∀ s : Settings, block s p = .ok (r.linesOn s.run s.trace name)) ∧
    (∀ run name, r.linesOn run true name = r.linesOn true true name) ∧
    ∃ response, respond r (front ++ names ++ back) = some response ∧
      match names.find? (· ∉ r.names) with
      | none =>
        (settings.output = none →
          response = { exit := 0, stdout := text ++ "\n", stderr := "" } ∧ response.filesIn tree = .ok []) ∧
        ∀ path file, settings.output = some path → (Path.ofString path).place tree = .ok (.inside file) →
          response.exit = 0 ∧ response.stdout = "" ∧ response.filesIn tree = .ok [(file, text)]
      | some name =>
        ∃ report, (Refusal.unknownProgram name r.names).report? = some report ∧
          (r.compile name).2 = .error (.unknownProgram name r.names) ∧
          response = { exit := 1, stdout := "", stderr := report.text ++ "\n" } ∧ response.filesIn tree = .ok [] := by
  intro r settings asked text
  have hr : r.Succeeds := Registry.succeeds_default
  refine ⟨Registry.names_default, fun name => hr.block_eq, fun run name => ?_, ?_⟩
  · simp only [Registry.linesOn, block, Bool.or_true]
  · cases hfind : names.find? (· ∉ r.names) with
    | none =>
      have hregistered : ∀ name ∈ names, name ∈ r.names := by simpa using hfind
      refine ⟨_, respond_of_registered hr hfront hback hnames hregistered, fun houtput => ?_,
        fun path file houtput hplace => ?_⟩
      · rw [ofLines_of_none houtput]
        exact ⟨rfl, rfl⟩
      · rw [ofLines_of_place houtput hplace]
        refine ⟨rfl, rfl, ?_⟩
        simp only [Response.filesIn, hplace]
        rfl
    | some name =>
      obtain ⟨hcompile, hrespond⟩ := respond_of_unregistered hr hfront hback hnames hfind
      exact ⟨_, hrespond, _, rfl, hcompile, rfl, rfl⟩

end

theorem place_out : (Path.ofString "out").place .system = .ok (.inside "out") :=
  place_of_name ⟨by decide, by decide, by decide, by decide⟩ (entry?_working "out")

/-- No names, which stand for all of them; a name that is given twice, with the listings in a file; and two names that
are not registered, behind one that is. The lines on a name are its heading, its instructions, and its run. -/
theorem respond_all_or_nothing_out :
    let r := Registry.default
    ("Program: backend" ∈ r.linesOn false false "backend" ∧ "Program: frontend" ∈ r.linesOn false true "frontend" ∧
      "  1: DUP                    ; Duplicate top of stack" ∈ r.linesOn false true "frontend" ∧
      "  2: CONCAT -> ['6969']" ∈ r.linesOn false true "frontend" ∧ "Result: 6969" ∈ r.linesOn false true "frontend") ∧
    (∃ response, respond r [] = some response ∧ response.exit = 0 ∧
      response.stdout =
        "\n".intercalate (r.linesOn false false "backend" ++ r.linesOn false false "frontend") ++ "\n") ∧
    (∃ response, respond r ["-o", "out", "frontend", "frontend", "-t"] = some response ∧ response.exit = 0 ∧
      response.stdout = "" ∧
      response.files = .ok [("out", "\n".intercalate
        (r.linesOn false true "frontend" ++ r.linesOn false true "frontend"))]) ∧
    ∃ response report, respond r ["--run", "backend", "nobody", "", "--output=out"] = some response ∧
      (Refusal.unknownProgram "nobody" ["backend", "frontend"]).report? = some report ∧
      response = { exit := 1, stdout := "", stderr := report.text ++ "\n" } ∧ response.files = .ok [] := by
  intro r
  refine ⟨by decide, ?_, ?_, ?_⟩
  · have hnames : ∀ name ∈ ([] : List String), IsDashless name := by simp
    obtain ⟨response, hresponse, h⟩ := (respond_all_or_nothing .system .nil .nil hnames).2.2.2
    obtain ⟨rfl, -⟩ := h.1 rfl
    exact ⟨_, hresponse, rfl, rfl⟩
  · have hout : Spelled [.output "out"] (["-o", "out"] ++ []) := .cons (.outputShort (by decide)) .nil
    have htrace : Spelled [.trace] (["-t"] ++ []) := .cons .traceShort .nil
    have hnames : ∀ name ∈ ["frontend", "frontend"], IsDashless name := by decide
    obtain ⟨response, hresponse, h⟩ := (respond_all_or_nothing .system hout htrace hnames).2.2.2
    obtain ⟨hexit, hstdout, hfiles⟩ := h.2 "out" "out" rfl place_out
    exact ⟨response, hresponse, hexit, hstdout, hfiles⟩
  · have hrun : Spelled [.run] (["--run"] ++ []) := .cons .runLong .nil
    have hout : Spelled [.output "out"] (["--output=" ++ "out"] ++ []) := .cons (.outputJoined (by decide)) .nil
    have hnames : ∀ name ∈ ["backend", "nobody", ""], IsDashless name := by decide
    obtain ⟨response, hresponse, report, hreport, -, h⟩ := (respond_all_or_nothing .system hrun hout hnames).2.2.2
    exact ⟨response, report, hresponse, hreport, h⟩

end CommandLine

end StackMachine
