import StackMachine.CommandLine.Request

/-!
# Options around the names

A command line that lists programs has its names in one row, with options in front of it and behind it. It is read
argument by argument: each option, however it is spelled, leads from one state of the reading to another whatever comes
behind it (`leads_form`), and so do options in a row (`Spelled.leads`) and the names (`leads_names`). So the request is
for the names as they stand, with the settings that the options make one after the other (`parse_of_spelled`).
-/

namespace StackMachine.CommandLine

/-- Whether an argument starts with no dash, so that nothing but a word can be meant. -/
def IsDashless (argument : String) : Prop := argument.toList.head? ≠ some '-'

instance (argument : String) : Decidable (IsDashless argument) :=
  inferInstanceAs (Decidable (_ ≠ _))

/-- An option that tells how programs are listed. -/
inductive Switch where
  | run
  | trace
  | output (path : String)

namespace Switch

/-- The settings after the option. -/
def apply (s : Settings) : Switch → Settings
  | run => { s with run := true }
  | trace => { s with trace := true }
  | output path => { s with output := some path }

/-- The arguments that the option can be given as. A path that is an argument of its own must not look like an option,
and a path that is joined to its option must not be the separator. -/
inductive Form : Switch → List String → Prop
  | runLong : Form run ["--run"]
  | runShort : Form run ["-r"]
  | traceLong : Form trace ["--trace"]
  | traceShort : Form trace ["-t"]
  | outputLong {path : String} : IsDashless path → Form (output path) ["--output", path]
  | outputShort {path : String} : IsDashless path → Form (output path) ["-o", path]
  | outputJoined {path : String} : path ≠ "--" → Form (output path) ["--output=" ++ path]

/-- The settings that options make one after the other. -/
def settings (switches : List Switch) : Settings := switches.foldl apply {}

end Switch

/-- The arguments that options in a row can be given as. -/
inductive Spelled : List Switch → List String → Prop
  | nil : Spelled [] []
  | cons {switch : Switch} {switches : List Switch} {form arguments : List String} :
      switch.Form form → Spelled switches arguments → Spelled (switch :: switches) (form ++ arguments)

namespace Reading

/-- The reading after an option. -/
def switched (r : Reading) (switch : Switch) : Reading :=
  { r with settings := switch.apply r.settings, names := r.names.close }

/-- Whatever comes behind the arguments is read as if the reading had been in the other state and the arguments had not
been there. -/
def Leads (r : Reading) (arguments : List String) (r' : Reading) : Prop :=
  ∀ rest, (tokens (arguments ++ rest)).bind r.takeAll = (tokens rest).bind r'.takeAll

theorem Leads.append {r r' r'' : Reading} {as bs : List String} (ha : r.Leads as r') (hb : r'.Leads bs r'') :
    r.Leads (as ++ bs) r'' := by
  intro rest
  rw [List.append_assoc, ha, hb]

end Reading

open Reading

/-! ### One argument -/

theorem IsDashless.ne_separator {argument : String} (h : IsDashless argument) : argument ≠ "--" := by
  rintro rfl
  exact h rfl

theorem classify_of_isDashless {argument : String} (h : IsDashless argument) :
    classify argument = .ok (.word argument) := by
  unfold classify
  exact if_pos h

theorem tokens_cons {argument : String} {token : Token} (hne : argument ≠ "--") (h : classify argument = .ok token)
    (rest : List String) : tokens (argument :: rest) = (tokens rest).map (token :: ·) := by
  simp only [tokens, hne, ↓reduceIte, h]
  cases tokens rest <;> rfl

theorem leads_singleton {r r' : Reading} {argument : String} {token : Token} (hne : argument ≠ "--")
    (hc : classify argument = .ok token) (h : ∀ others, r.takeAll (token :: others) = r'.takeAll others) :
    r.Leads [argument] r' := by
  intro rest
  rw [List.singleton_append, tokens_cons hne hc]
  cases tokens rest with
  | error e => rfl
  | ok others => exact h others

/-- A word that belongs to the option in front of it. -/
theorem leads_pair {r r' : Reading} {argument value : String} {token : Token} (hne : argument ≠ "--")
    (hc : classify argument = .ok token) (hvalue : IsDashless value)
    (h : ∀ others, r.takeAll (token :: .word value :: others) = r'.takeAll others) : r.Leads [argument, value] r' := by
  intro rest
  rw [List.cons_append, tokens_cons hne hc, List.singleton_append,
    tokens_cons hvalue.ne_separator (classify_of_isDashless hvalue)]
  cases tokens rest with
  | error e => rfl
  | ok others => exact h others

/-! ### One option -/

theorem takeAll_option {r r' : Reading} {found : Found} {steps : List Step} (hsteps : found.steps = .ok steps)
    (hwanting : wanting? steps = none) (hcarry : r.carryOut steps = some r') (others : List Token) :
    r.takeAll (.option found :: others) = r'.takeAll others := by
  rw [takeAll, hsteps]
  simp only [bind, Except.bind, hwanting, hcarry]

theorem takeAll_option_word {r r' : Reading} {found : Found} {steps : List Step} {action : Action}
    (hsteps : found.steps = .ok steps) (hwanting : wanting? steps = some action) (hcarry : r.carryOut steps = some r')
    (value : String) (others : List Token) :
    r.takeAll (.option found :: .word value :: others) =
      { r' with settings := r'.settings.withValue value }.takeAll others := by
  rw [takeAll, hsteps]
  simp only [bind, Except.bind, hwanting, hcarry]

theorem withValue_of_ne_separator {path : String} (h : path ≠ "--") (s : Settings) :
    s.withValue path = Switch.apply s (.output path) := by
  rw [Settings.withValue, if_neg h]
  rfl

/-- No spelling of an option contains an equals sign. -/
private theorem lookup_of_mem_equals {argument : String} (h : '=' ∈ argument.toList) :
    spellings.lookup argument = none := by
  rw [List.lookup_eq_none_iff]
  intro spelling hmem
  have hequals : spellings.all (fun p => !p.1.toList.contains '=') = true := rfl
  have hspelling := List.all_eq_true.mp hequals spelling hmem
  rw [bne_iff_ne]
  rintro rfl
  simp [h] at hspelling

theorem classify_outputJoined (path : String) :
    classify ("--output=" ++ path) = .ok (.option ⟨.output, false, some path.toList⟩) := by
  have hchars : ("--output=" ++ path).toList = "--output=".toList ++ path.toList := String.toList_append ..
  have hlookup : spellings.lookup ("--output=" ++ path) = none := by
    apply lookup_of_mem_equals
    rw [hchars]
    exact List.mem_append_left _ (by decide)
  have hsplit : splitAtEquals ("--output=".toList ++ path.toList) = ("--output".toList, some path.toList) := rfl
  simp only [classify, hlookup, hchars, hsplit]
  rfl

theorem leads_form {switch : Switch} {form : List String} (h : switch.Form form) (r : Reading) :
    r.Leads form (r.switched switch) := by
  cases h with
  | runLong | runShort | traceLong | traceShort =>
    exact leads_singleton (by decide) rfl (takeAll_option rfl rfl rfl)
  | outputLong hpath | outputShort hpath =>
    refine leads_pair (by decide) rfl hpath fun others => ?_
    rw [takeAll_option_word rfl rfl rfl, withValue_of_ne_separator hpath.ne_separator]
    rfl
  | @outputJoined path hpath =>
    have hne : "--output=" ++ path ≠ "--" := by
      intro h
      have hlists := congrArg String.toList h
      rw [String.toList_append] at hlists
      cases hlists
    refine leads_singleton hne (classify_outputJoined path) (takeAll_option rfl rfl ?_)
    show some { r with settings := r.settings.withValue (String.ofList path.toList), names := r.names.close } = _
    rw [String.ofList_toList, withValue_of_ne_separator hpath]
    rfl

/-! ### Options in a row -/

theorem Spelled.leads {switches : List Switch} {arguments : List String} (h : Spelled switches arguments)
    (r : Reading) : r.Leads arguments (switches.foldl switched r) := by
  induction h generalizing r with
  | nil => exact fun rest => rfl
  | cons hform _ ih => exact (leads_form hform r).append (ih _)

theorem close_close (names : Names) : names.close.close = names.close := by
  cases names <;> rfl

theorem toList_close (names : Names) : names.close.toList = names.toList := by
  cases names <;> rfl

/-- Options in a row change the settings, and end the row of names if there is one. -/
theorem foldl_switched (r : Reading) (switches : List Switch) :
    switches.foldl switched r =
      ⟨switches.foldl Switch.apply r.settings, if switches.isEmpty then r.names else r.names.close, r.leftOver⟩ := by
  induction switches generalizing r with
  | nil => rfl
  | cons switch switches ih =>
    rw [List.foldl_cons, ih]
    simp [switched, close_close]

/-! ### The names -/

theorem leads_names {names : List String} (h : ∀ name ∈ names, IsDashless name) (r : Reading) :
    r.Leads names (names.foldl takeWord r) := by
  induction names generalizing r with
  | nil => exact fun rest => rfl
  | cons name names ih =>
    obtain ⟨hname, hnames⟩ := List.forall_mem_cons.mp h
    have hfirst : r.Leads [name] (r.takeWord name) :=
      leads_singleton hname.ne_separator (classify_of_isDashless hname) fun _ => rfl
    exact hfirst.append (ih hnames _)

private theorem foldl_takeWord_current (s : Settings) (reversed leftOver names : List String) :
    names.foldl takeWord ⟨s, .current reversed, leftOver⟩ = ⟨s, .current (names.reverse ++ reversed), leftOver⟩ := by
  induction names generalizing reversed with
  | nil => rfl
  | cons name names ih =>
    rw [List.reverse_cons, List.append_assoc]
    exact ih (name :: reversed)

/-- The first words of a reading are its names. -/
theorem foldl_takeWord (s : Settings) (leftOver : List String) {names : List String} (h : "--" ∉ names) :
    ∃ words : Names, names.foldl takeWord ⟨s, .awaited, leftOver⟩ = ⟨s, words, leftOver⟩ ∧ words.toList = names := by
  cases names with
  | nil => exact ⟨.awaited, rfl, rfl⟩
  | cons name names =>
    refine ⟨.current (names.reverse ++ [name]), foldl_takeWord_current s [name] leftOver names, ?_⟩
    rw [Names.toList, ← List.reverse_cons, List.reverse_reverse, List.erase_of_not_mem h]

/-- A command line with the names between options, which asks for listings. -/
theorem parse_of_spelled {before after : List Switch} {front back names : List String} (hfront : Spelled before front)
    (hback : Spelled after back) (hnames : ∀ name ∈ names, IsDashless name) :
    parse (front ++ names ++ back) = .ok (.listing (Switch.settings (before ++ after)) names) := by
  have hseparator : "--" ∉ names := fun h => (hnames _ h).ne_separator rfl
  have hbefore : before.foldl switched {} = ⟨Switch.settings before, .awaited, []⟩ := by
    rw [foldl_switched]
    cases before <;> rfl
  obtain ⟨words, hwords, hlist⟩ := foldl_takeWord (Switch.settings before) [] hseparator
  -- nothing comes behind the options at the end, so the reading that they lead to is the last one
  have hleads := (((hfront.leads {}).append (leads_names hnames _)).append (hback.leads _)) []
  rw [List.append_nil, hbefore, hwords, foldl_switched] at hleads
  show (tokens (front ++ names ++ back)).bind ({} : Reading).takeAll = _
  rw [hleads]
  have hend : (if after.isEmpty then words else words.close).toList = names := by
    split
    · exact hlist
    · rw [toList_close, hlist]
  show Except.ok (Request.listing (after.foldl Switch.apply (Switch.settings before)) _) = _
  rw [hend, Switch.settings, Switch.settings, List.foldl_append]

end StackMachine.CommandLine
