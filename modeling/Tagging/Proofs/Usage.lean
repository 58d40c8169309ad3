import Tagging.CommandLine

/-!
# What the command line accepts

The documented arguments are options one behind the other, and then the text. An option is a switch, which stands
alone, or it is followed by its value, which may also stand behind an equals sign if the name of the option is a
long one. Such a row of options is read one by one, and the first argument that is no documented option, but looks
like one, ends the reading with an error.

There is one exception. Every argument is split at its first equals sign before it is known what it is, and a
switch never asks for the other part. So a switch that carries a value is taken for the switch alone, and the two
signs that end the options are taken for themselves if they carry one.
-/

namespace Tagging.CommandLine

/-! ## Documented arguments -/

/-- What an option says. -/
inductive Choice where
  /-- Whether colours are used. -/
  | color (on : Bool)
  /-- The steps of the work are logged. -/
  | debug
  /-- The rules are evaluated together. -/
  | parallel
  /-- The highlighted text is shown. -/
  | highlight
  /-- Clausal forms are left as they are. -/
  | noSimplify
  /-- An option has a value. -/
  | value (option : Valued) (value : String)

/-- The switches that make a choice. -/
def switches : List (String × Choice) :=
  [("--color", .color true), ("--no-color", .color false), ("--debug", .debug), ("--parallel", .parallel),
    ("--highlight", .highlight), ("--no-simplify", .noSimplify)]

/-- The options with a value. -/
def valuedOptions : List (String × Valued) :=
  [("-r", .rules), ("--rules", .rules), ("-e", .expression), ("--expr", .expression),
    ("--tokenizer", .tokenizer), ("--normalizer", .normalizer), ("--query", .query)]

/-- The switches that ask for the help or the version. -/
def helpSwitches : List String := ["-h", "--help", "-V", "--version"]

/-- The name is a long one. -/
def IsLong (name : String) : Prop := ['-', '-'] <+: name.toList

instance (name : String) : Decidable (IsLong name) := inferInstanceAs (Decidable (_ <+: _))

/-- The ways to write an option that makes a choice. -/
inductive Choice.Written : Choice → List String → Prop where
  /-- A switch stands alone. -/
  | alone {name : String} {choice : Choice} (h : (name, choice) ∈ switches) : Written choice [name]
  /-- A value follows its option. -/
  | apart {name : String} {option : Valued} (h : (name, option) ∈ valuedOptions) (value : String) :
      Written (.value option value) [name, value]
  /-- A value stands behind an equals sign. -/
  | inline {name : String} {option : Valued} (h : (name, option) ∈ valuedOptions) (hlong : IsLong name)
      (value : String) : Written (.value option value) [name ++ "=" ++ value]

/-- Options one behind the other, and the choices that they make. -/
inductive Row : List Choice → List String → Prop where
  | nil : Row [] []
  | cons {choice : Choice} {choices : List Choice} {option front : List String} (hfirst : choice.Written option)
      (hrest : Row choices front) : Row (choice :: choices) (option ++ front)

/-- What may stand behind the options. -/
inductive TextPart : List String → Prop where
  /-- There is no text. -/
  | none : TextPart []
  /-- Two signs end the options. -/
  | behind (text : List String) : TextPart ("--" :: text)
  /-- The text starts with an argument that does not look like an option. -/
  | first {argument : String} (h : looksLikeOption argument = false) (text : List String) :
      TextPart (argument :: text)

/-- The arguments are documented options, and what may stand behind these. -/
def Documented (arguments : List String) : Prop :=
  ∃ choices front text, Row choices front ∧ TextPart text ∧ arguments = front ++ text

/-- A documented option stands at the front of the arguments. -/
def BeginsWithOption (arguments : List String) : Prop :=
  ∃ choice written rest, Choice.Written choice written ∧ arguments = written ++ rest

/-- Only documented options stand before the argument. -/
def Reaches (arguments : List String) (argument : String) : Prop :=
  ∃ choices front rest, Row choices front ∧ arguments = front ++ argument :: rest

/-- The arguments that take no value: the switches, and the two signs that end the options. -/
def bareNames : List String := "--" :: "--help" :: "--version" :: switches.map Prod.fst

/-- The argument takes no value and carries one. -/
def CarriesUnused (argument : String) : Prop := ∃ name ∈ bareNames, ∃ value, argument = name ++ "=" ++ value

/-- The settings with a choice made. -/
def Settings.choose (settings : Settings) : Choice → Except UsageError Settings
  | .color on => .ok { settings with color := on }
  | .debug => .ok { settings with debug := true }
  | .parallel => .ok { settings with parallel := true }
  | .highlight => .ok { settings with highlight := true }
  | .noSimplify => .ok { settings with options := { settings.options with simplify := false } }
  | .value option value => settings.setValue option value

/-! ## Names and values -/

section Names

variable {argument name value : String} {switch : Switch} {option : Valued} {choice : Choice}

/-- A long name without an equals sign is told from the `value` behind its first one. -/
theorem splitOption_inline (hlong : IsLong name) (hequals : '=' ∉ name.toList) (value : String) :
    splitOption (name ++ "=" ++ value) = (name, some value) := by
  obtain ⟨more, hmore⟩ := hlong
  have htext : (name ++ "=" ++ value).toList = name.toList ++ '=' :: value.toList := by simp
  have hsplit := Text.splitOnce?_eq_some_iff.2 ⟨htext, hequals⟩
  rw [← hmore] at hsplit
  unfold splitOption
  rw [hsplit]
  show (String.ofList (['-', '-'] ++ more), some (String.ofList value.toList)) = _
  rw [hmore, String.ofList_toList, String.ofList_toList]

theorem eq_of_splitOption_none (h : splitOption argument = (name, none)) : argument = name := by
  unfold splitOption at h
  split at h
  · cases h
  · exact (Prod.mk.inj h).1

/-- Only a long name and an equals sign go before a `value`. -/
theorem eq_of_splitOption_some (h : splitOption argument = (name, some value)) :
    argument = name ++ "=" ++ value ∧ IsLong name := by
  unfold splitOption at h
  split at h
  · next more text hsplit =>
    cases h
    obtain ⟨htext, -⟩ := Text.splitOnce?_eq_some_iff.1 hsplit
    refine ⟨String.ext_iff.2 ?_, ⟨more, by simp⟩⟩
    simp [htext]
  · cases h

/-- The names that arguments are compared with. -/
def names : List String := helpSwitches ++ "--" :: (switches.map Prod.fst ++ valuedOptions.map Prod.fst)

theorem splitOption_of_mem_names (h : name ∈ names) : splitOption name = (name, none) := by
  have hall : ∀ name ∈ names, splitOption name = (name, none) := by decide
  exact hall name h

theorem splitOption_inline_of_mem_names (h : name ∈ names) (hlong : IsLong name) (value : String) :
    splitOption (name ++ "=" ++ value) = (name, some value) := by
  have hall : ∀ name ∈ names, '=' ∉ name.toList := by decide
  exact splitOption_inline hlong (hall name h) value

theorem mem_names_of_mem_helpSwitches (h : name ∈ helpSwitches) : name ∈ names :=
  List.mem_append_left _ h

theorem mem_names_of_mem_switches (h : (name, choice) ∈ switches) : name ∈ names := by
  have hname : name ∈ switches.map Prod.fst := List.mem_map_of_mem h
  simp [names, hname]

theorem mem_names_of_mem_valuedOptions (h : (name, option) ∈ valuedOptions) : name ∈ names := by
  have hname : name ∈ valuedOptions.map Prod.fst := List.mem_map_of_mem h
  simp [names, hname]

theorem mem_names_of_mem_bareNames (h : name ∈ bareNames) : name ∈ names ∧ IsLong name := by
  have hall : ∀ name ∈ bareNames, name ∈ names ∧ IsLong name := by decide
  exact hall name h

theorem splitOption_of_carries (h : name ∈ bareNames) (value : String) :
    splitOption (name ++ "=" ++ value) = (name, some value) := by
  obtain ⟨hname, hlong⟩ := mem_names_of_mem_bareNames h
  exact splitOption_inline_of_mem_names hname hlong value

/-! ## What names stand for -/

/-- A documented switch is known, and turning it on makes its `choice`. -/
theorem switch?_of_mem_switches (h : (name, choice) ∈ switches) : ∃ switch, switch? name = some switch ∧
    ∀ settings : Settings, ∃ chosen, settings.turnOn switch = .label chosen ∧ settings.choose choice = .ok chosen := by
  simp only [switches, List.mem_cons, List.not_mem_nil, or_false, Prod.mk.injEq] at h
  rcases h with ⟨rfl, rfl⟩ | ⟨rfl, rfl⟩ | ⟨rfl, rfl⟩ | ⟨rfl, rfl⟩ | ⟨rfl, rfl⟩ | ⟨rfl, rfl⟩
  all_goals exact ⟨_, rfl, fun settings => ⟨_, rfl, rfl⟩⟩

theorem switch?_of_mem_helpSwitches (h : name ∈ helpSwitches) :
    switch? name = some .help ∨ switch? name = some .version := by
  have hall : ∀ name ∈ helpSwitches, switch? name = some .help ∨ switch? name = some .version := by decide
  exact hall name h

theorem valued?_of_mem_valuedOptions (h : (name, option) ∈ valuedOptions) :
    switch? name = none ∧ valued? name = some option := by
  have hall : ∀ entry ∈ valuedOptions, switch? entry.1 = none ∧ valued? entry.1 = some entry.2 := by
    decide
  exact hall _ h

theorem mem_of_switch? (h : switch? name = some switch) : name ∈ helpSwitches ∨ name ∈ switches.map Prod.fst := by
  obtain ⟨before, after, htable, -⟩ := List.lookup_eq_some_iff.1 h
  have hmem : name ∈ (before ++ (name, switch) :: after).map Prod.fst := by simp
  rw [← htable] at hmem
  simpa [helpSwitches, switches, or_assoc] using hmem

theorem mem_of_valued? (h : valued? name = some option) : (name, option) ∈ valuedOptions := by
  obtain ⟨before, after, htable, -⟩ := List.lookup_eq_some_iff.1 h
  rw [valuedOptions, htable]
  simp

end Names

/-! ## Reading one argument -/

namespace Settings

variable {argument name value : String} {carried : Option String} {switch : Switch} {option : Valued}
  {choice : Choice} {choices : List Choice} {written front : List String}

/-- A switch is read for its `name` alone: what it has `carried` has no part in it. -/
theorem read_switch (hsplit : splitOption argument = (name, carried)) (hswitch : switch? name = some switch)
    (settings : Settings) (rest : List String) : settings.read (argument :: rest) =
      match settings.turnOn switch with
      | .label chosen => chosen.read rest
      | request => .ok request := by
  rw [read, hsplit]
  dsimp only
  rewrite [hswitch]
  cases valued? name <;> rfl

theorem read_inline (hsplit : splitOption argument = (name, some value))
    (hname : switch? name = none ∧ valued? name = some option) (settings : Settings) (rest : List String) :
    settings.read (argument :: rest) = settings.setValue option value >>= fun chosen => chosen.read rest := by
  rw [read, hsplit]
  dsimp only
  rw [hname.1, hname.2]

theorem read_apart (hsplit : splitOption argument = (name, none))
    (hname : switch? name = none ∧ valued? name = some option) (settings : Settings) (value : String)
    (rest : List String) :
    settings.read (argument :: value :: rest) = settings.setValue option value >>= fun chosen => chosen.read rest := by
  rw [read, hsplit]
  dsimp only
  rw [hname.1, hname.2]

theorem read_missing (hsplit : splitOption argument = (name, none))
    (hname : switch? name = none ∧ valued? name = some option) (settings : Settings) :
    settings.read [argument] = .error (.missingValue name) := by
  rw [read, hsplit]
  dsimp only
  rw [hname.1, hname.2]

theorem read_behind (hsplit : splitOption argument = ("--", carried)) (settings : Settings) (rest : List String) :
    settings.read (argument :: rest) = settings.read ("--" :: rest) := by
  have hdashes : splitOption "--" = ("--", none) := by decide
  rw [read, read, hsplit, hdashes]
  rfl

theorem read_unknown (hsplit : splitOption argument = (name, carried)) (hswitch : switch? name = none)
    (hvalued : valued? name = none) (hdashes : name ≠ "--") (hlooks : looksLikeOption argument = true)
    (settings : Settings) (rest : List String) :
    settings.read (argument :: rest) = .error (.unknownOption argument) := by
  rw [read, hsplit]
  dsimp only
  rw [hswitch, hvalued]
  dsimp only
  rw [if_neg hdashes, if_pos hlooks]

/-- The help or the version is shown, whatever the `rest` is. -/
theorem read_helpSwitch (h : name ∈ helpSwitches) (settings : Settings) (rest : List String) :
    settings.read (name :: rest) = .ok .help ∨ settings.read (name :: rest) = .ok .version := by
  have hsplit := splitOption_of_mem_names (mem_names_of_mem_helpSwitches h)
  rcases switch?_of_mem_helpSwitches h with hswitch | hswitch
  · exact .inl (read_switch hsplit hswitch settings rest)
  · exact .inr (read_switch hsplit hswitch settings rest)

/-! ## Reading a row of options -/

/-- However it is written, an option is read by making its `choice`. -/
theorem read_written (h : choice.Written written) (settings : Settings) (rest : List String) :
    settings.read (written ++ rest) = settings.choose choice >>= fun chosen => chosen.read rest := by
  cases h with
  | alone h =>
    obtain ⟨switch, hswitch, hchosen⟩ := switch?_of_mem_switches h
    obtain ⟨chosen, hturn, hchoose⟩ := hchosen settings
    rw [List.singleton_append, read_switch (splitOption_of_mem_names (mem_names_of_mem_switches h)) hswitch, hturn,
      hchoose]
    rfl
  | apart h value =>
    exact read_apart (splitOption_of_mem_names (mem_names_of_mem_valuedOptions h)) (valued?_of_mem_valuedOptions h)
      settings value rest
  | inline h hlong value =>
    exact read_inline (splitOption_inline_of_mem_names (mem_names_of_mem_valuedOptions h) hlong value)
      (valued?_of_mem_valuedOptions h) settings rest

/-- A row of options is read by making its `choices` one by one. -/
theorem read_row (h : Row choices front) (settings : Settings) (rest : List String) :
    settings.read (front ++ rest) = choices.foldlM choose settings >>= fun chosen => chosen.read rest := by
  induction h generalizing settings with
  | nil => rfl
  | cons hfirst _ ih =>
    rw [List.append_assoc, read_written hfirst, List.foldlM_cons, bind_assoc]
    exact bind_congr fun chosen => ih chosen

/-- A `value` that an argument carries for nothing is dropped. -/
theorem read_carried (h : name ∈ bareNames) (value : String) (settings : Settings) (rest : List String) :
    settings.read ((name ++ "=" ++ value) :: rest) = settings.read (name :: rest) := by
  have hcarried := splitOption_of_carries h value
  have halone := splitOption_of_mem_names (mem_names_of_mem_bareNames h).1
  have hall : ∀ name ∈ bareNames, name = "--" ∨ (switch? name).isSome := by decide
  rcases hall name h with rfl | hswitch
  · exact read_behind hcarried settings rest
  · obtain ⟨switch, hswitch⟩ := Option.isSome_iff_exists.1 hswitch
    rw [read_switch hcarried hswitch, read_switch halone hswitch]

end Settings

/-! ## What is reached -/

section Reached

variable {argument name value : String} {switch : Switch} {option : Valued} {choice choice' : Choice}
  {choices choices' : List Choice} {written written' front front' text rest rest' : List String}

theorem ne_dashes_of_splitOption_some (h : splitOption argument = (name, some value)) : argument ≠ "--" := by
  rintro rfl
  have hdashes : splitOption "--" = ("--", none) := by decide
  rw [hdashes] at h
  cases h

theorem looksLikeOption_of_isLong (h : IsLong name) (more : String) :
    looksLikeOption (name ++ "=" ++ more) = true := by
  obtain ⟨others, hname⟩ := h
  unfold looksLikeOption
  simp [← hname]

theorem not_textPart_cons (hlooks : looksLikeOption argument = true) (hdashes : argument ≠ "--")
    (rest : List String) : ¬ TextPart (argument :: rest) := by
  intro htext
  cases htext with
  | behind => exact hdashes rfl
  | first hfirst =>
    rw [hlooks] at hfirst
    cases hfirst

/-- The number of arguments that belong to an option behind its first. -/
def following (argument : String) : Nat := if (valued? argument).isSome then 1 else 0

theorem following_of_splitOption_some (h : splitOption argument = (name, some value)) : following argument = 0 := by
  unfold following
  cases hvalued : valued? argument with
  | none => rfl
  | some option =>
    rw [splitOption_of_mem_names (mem_names_of_mem_valuedOptions (mem_of_valued? hvalued))] at h
    cases h

namespace Choice.Written

/-- An option is told from the text by its first `argument`, which also tells how many belong to it. -/
theorem exists_head (h : Written choice written) : ∃ argument more, written = argument :: more ∧
    more.length = following argument ∧ looksLikeOption argument = true ∧ argument ≠ "--" := by
  cases h with
  | @alone name choice h =>
    have hall : ∀ entry ∈ switches, 0 = following entry.1 ∧ looksLikeOption entry.1 = true ∧ entry.1 ≠ "--" := by
      decide
    exact ⟨name, [], rfl, hall _ h⟩
  | @apart name option h value =>
    have hall : ∀ entry ∈ valuedOptions,
        1 = following entry.1 ∧ looksLikeOption entry.1 = true ∧ entry.1 ≠ "--" := by decide
    exact ⟨name, [value], rfl, hall _ h⟩
  | @inline name option h hlong value =>
    have hsplit := splitOption_inline_of_mem_names (mem_names_of_mem_valuedOptions h) hlong value
    exact ⟨_, [], rfl, (following_of_splitOption_some hsplit).symm, looksLikeOption_of_isLong hlong value,
      ne_dashes_of_splitOption_some hsplit⟩

theorem append_inj (h : Written choice written) (h' : Written choice' written')
    (heq : written ++ rest = written' ++ rest') : written = written' ∧ rest = rest' := by
  obtain ⟨argument, more, rfl, hlength, -⟩ := h.exists_head
  obtain ⟨argument', more', rfl, hlength', -⟩ := h'.exists_head
  obtain ⟨rfl, hmore⟩ := List.cons.inj heq
  obtain ⟨rfl, rfl⟩ := List.append_inj hmore (hlength.trans hlength'.symm)
  exact ⟨rfl, rfl⟩

theorem not_textPart (h : Written choice written) (rest : List String) : ¬ TextPart (written ++ rest) := by
  obtain ⟨argument, more, rfl, -, hlooks, hdashes⟩ := h.exists_head
  exact not_textPart_cons hlooks hdashes _

end Choice.Written

/-- Of arguments that are documented, by `h'` and `htext`, every `rest` that is reached by a row of options `front`
is text, or begins with an option. By induction on `h`: the two rows have their first options in common, as long as
both have one. -/
theorem Row.textPart_or_beginsWithOption (h : Row choices front) (h' : Row choices' front') (htext : TextPart text)
    (heq : front ++ rest = front' ++ text) : TextPart rest ∨ BeginsWithOption rest := by
  induction h generalizing choices' front' with
  | nil =>
    rw [List.nil_append] at heq
    subst heq
    cases h' with
    | nil => exact .inl htext
    | cons hfirst hrest => exact .inr ⟨_, _, _, hfirst, List.append_assoc _ _ _⟩
  | cons hfirst _ ih =>
    cases h' with
    | nil =>
      rw [List.nil_append, List.append_assoc] at heq
      rw [← heq] at htext
      exact absurd htext (hfirst.not_textPart _)
    | cons hfirst' hrest' =>
      rw [List.append_assoc, List.append_assoc] at heq
      exact ih hrest' (hfirst.append_inj hfirst' heq).2

theorem Documented.textPart_or_beginsWithOption {arguments : List String} (h : Documented arguments) :
    TextPart arguments ∨ BeginsWithOption arguments := by
  obtain ⟨choices, front, text, hrow, htext, harguments⟩ := h
  exact Row.nil.textPart_or_beginsWithOption hrow htext harguments

/-- Beyond the first `argument` another one is reached only if an option stands there. -/
theorem Reaches.eq_or_beginsWithOption (h : Reaches (argument :: rest) name) :
    name = argument ∨ BeginsWithOption (argument :: rest) := by
  obtain ⟨choices, front, behind, hrow, heq⟩ := h
  cases hrow with
  | nil => exact .inl (List.cons.inj heq).1.symm
  | cons hfirst _ => exact .inr ⟨_, _, _, hfirst, heq.trans (List.append_assoc _ _ _)⟩

/-- All `arguments` are documented, or one is reached that is neither a documented option nor text. By induction on
their number, since an option that stands in front leaves fewer. -/
theorem documented_or_reaches (arguments : List String) : Documented arguments ∨
    ∃ choices front argument rest, Row choices front ∧ arguments = front ++ argument :: rest ∧
      ¬ TextPart (argument :: rest) ∧ ¬ BeginsWithOption (argument :: rest) := by
  induction hlength : arguments.length using Nat.strongRecOn generalizing arguments with
  | _ length ih =>
  cases arguments with
  | nil => exact .inl ⟨[], [], [], .nil, .none, rfl⟩
  | cons argument rest =>
    by_cases htext : TextPart (argument :: rest)
    · exact .inl ⟨[], [], _, .nil, htext, rfl⟩
    by_cases hoption : BeginsWithOption (argument :: rest)
    · obtain ⟨choice, written, behind, hwritten, harguments⟩ := hoption
      obtain ⟨first, more, rfl, -⟩ := hwritten.exists_head
      have hshorter : behind.length < length := by
        rw [← hlength, harguments, List.length_append, List.length_cons]
        omega
      rcases ih _ hshorter behind rfl with ⟨choices, front, text, hrow, hpart, rfl⟩ |
        ⟨choices, front, stray, others, hrow, rfl, hstray⟩
      · exact .inl ⟨_, _, text, hrow.cons hwritten, hpart, by rw [harguments, List.append_assoc]⟩
      · exact .inr ⟨_, _, stray, others, hrow.cons hwritten, by rw [harguments, List.append_assoc], hstray⟩
    · exact .inr ⟨[], [], argument, rest, .nil, rfl, htext, hoption⟩

/-- An option is a switch that has `carried` no value, or its `name` is that of an option with one. -/
theorem BeginsWithOption.name_mem {carried : Option String} (h : BeginsWithOption (argument :: rest))
    (hsplit : splitOption argument = (name, carried)) :
    name ∈ switches.map Prod.fst ∧ carried = none ∨ name ∈ valuedOptions.map Prod.fst := by
  obtain ⟨choice, written, behind, hwritten, heq⟩ := h
  cases hwritten with
  | alone h =>
    obtain ⟨rfl, -⟩ := List.cons.inj heq
    rw [splitOption_of_mem_names (mem_names_of_mem_switches h)] at hsplit
    cases hsplit
    exact .inl ⟨List.mem_map_of_mem h, rfl⟩
  | apart h =>
    obtain ⟨rfl, -⟩ := List.cons.inj heq
    rw [splitOption_of_mem_names (mem_names_of_mem_valuedOptions h)] at hsplit
    cases hsplit
    exact .inr (List.mem_map_of_mem h)
  | inline h hlong =>
    rw [(List.cons.inj heq).1, splitOption_inline_of_mem_names (mem_names_of_mem_valuedOptions h) hlong] at hsplit
    cases hsplit
    exact .inr (List.mem_map_of_mem h)

/-- An `argument` that carries a value for nothing is no documented option, and no text. -/
theorem CarriesUnused.not_documented (h : CarriesUnused argument) (rest : List String) :
    ¬ TextPart (argument :: rest) ∧ ¬ BeginsWithOption (argument :: rest) := by
  obtain ⟨name, hname, value, rfl⟩ := h
  have hsplit := splitOption_of_carries hname value
  have hlooks := looksLikeOption_of_isLong (mem_names_of_mem_bareNames hname).2 value
  constructor
  · exact not_textPart_cons hlooks (ne_dashes_of_splitOption_some hsplit) rest
  · intro hoption
    have hall : ∀ name ∈ valuedOptions.map Prod.fst, name ∉ bareNames := by decide
    rcases hoption.name_mem hsplit with ⟨-, hnone⟩ | hvalued
    · cases hnone
    · exact hall name hvalued hname

/-- A switch that is not documented where it stands, as `hoption` says, carries a value. -/
theorem carriesUnused_of_switch? {carried : Option String} (hsplit : splitOption argument = (name, carried))
    (hswitch : switch? name = some switch) (hoption : ¬ BeginsWithOption (argument :: rest))
    (hhelp : argument ∉ helpSwitches) : CarriesUnused argument := by
  cases carried with
  | none =>
    obtain rfl := eq_of_splitOption_none hsplit
    rcases mem_of_switch? hswitch with h | h
    · exact absurd h hhelp
    · obtain ⟨⟨_, choice⟩, hmem, rfl⟩ := List.mem_map.1 h
      exact absurd ⟨choice, _, rest, .alone hmem, rfl⟩ hoption
  | some value =>
    obtain ⟨rfl, hlong⟩ := eq_of_splitOption_some hsplit
    refine ⟨name, ?_, value, rfl⟩
    have hall : ∀ name ∈ helpSwitches, IsLong name → name ∈ bareNames := by decide
    rcases mem_of_switch? hswitch with h | h
    · exact hall name h hlong
    · exact List.mem_cons_of_mem _ (List.mem_cons_of_mem _ (List.mem_cons_of_mem _ h))

/-- Of an option with a value that is not documented where it stands, as `hoption` says, the value is missing. -/
theorem read_eq_error_of_valued? {carried : Option String} (hsplit : splitOption argument = (name, carried))
    (hswitch : switch? name = none) (hvalued : valued? name = some option)
    (hoption : ¬ BeginsWithOption (argument :: rest)) (settings : Settings) :
    settings.read (argument :: rest) = .error (.missingValue name) := by
  have hmem := mem_of_valued? hvalued
  cases carried with
  | some value =>
    obtain ⟨rfl, hlong⟩ := eq_of_splitOption_some hsplit
    exact absurd ⟨_, _, rest, .inline hmem hlong value, rfl⟩ hoption
  | none =>
    cases rest with
    | nil => exact Settings.read_missing hsplit ⟨hswitch, hvalued⟩ settings
    | cons value rest =>
      obtain rfl := eq_of_splitOption_none hsplit
      exact absurd ⟨_, _, rest, .apart hmem value, rfl⟩ hoption

/-- An `argument` that is neither a documented option nor text is rejected, unless it carries a value that it does
not take. -/
theorem exists_read_eq_error (htext : ¬ TextPart (argument :: rest)) (hoption : ¬ BeginsWithOption (argument :: rest))
    (hhelp : argument ∉ helpSwitches) (hcarries : ¬ CarriesUnused argument) :
    ∃ error, ∀ settings : Settings, settings.read (argument :: rest) = .error error := by
  obtain ⟨name, carried, hsplit⟩ : ∃ name carried, splitOption argument = (name, carried) := ⟨_, _, rfl⟩
  cases hswitch : switch? name with
  | some switch => exact absurd (carriesUnused_of_switch? hsplit hswitch hoption hhelp) hcarries
  | none =>
    cases hvalued : valued? name with
    | some option => exact ⟨_, read_eq_error_of_valued? hsplit hswitch hvalued hoption⟩
    | none =>
      have hlooks : looksLikeOption argument = true :=
        Bool.of_not_eq_false fun hlooks => htext (.first hlooks rest)
      have hdashes : name ≠ "--" := by
        rintro rfl
        cases carried with
        | none =>
          obtain rfl := eq_of_splitOption_none hsplit
          exact htext (.behind rest)
        | some value => exact hcarries ⟨"--", by decide, value, (eq_of_splitOption_some hsplit).1⟩
      exact ⟨_, fun settings => Settings.read_unknown hsplit hswitch hvalued hdashes hlooks settings rest⟩

end Reached

/-! ## What is accepted -/

/-- No argument that asks for the help or the version is reached. -/
def AsksNothing (arguments : List String) : Prop := ∀ name ∈ helpSwitches, ¬ Reaches arguments name

/-- No argument is reached that carries a value which it does not take. -/
def WastesNothing (arguments : List String) : Prop :=
  ∀ argument, Reaches arguments argument → ¬ CarriesUnused argument

theorem wastesNothing_of_documented {arguments : List String} (h : Documented arguments) :
    WastesNothing arguments := by
  obtain ⟨choices, front, text, hrow, htext, rfl⟩ := h
  rintro argument ⟨choices', front', rest, hrow', heq⟩ hcarries
  obtain ⟨hnotText, hnotOption⟩ := hcarries.not_documented rest
  exact (hrow'.textPart_or_beginsWithOption hrow htext heq.symm).elim hnotText hnotOption

/-- If nothing reached asks for the help or carries a value for nothing, as `hasks` and `hwastes` say, `arguments`
that are not documented are rejected. -/
theorem exists_error_of_not_documented {arguments : List String} (hasks : AsksNothing arguments)
    (hwastes : WastesNothing arguments) (h : ¬ Documented arguments) (settings : Settings) :
    ∃ error, settings.read arguments = .error error := by
  rcases documented_or_reaches arguments with hdocumented |
    ⟨choices, front, argument, rest, hrow, rfl, htext, hoption⟩
  · exact absurd hdocumented h
  · have hreached : Reaches (front ++ argument :: rest) argument := ⟨choices, front, rest, hrow, rfl⟩
    obtain ⟨error, herror⟩ := exists_read_eq_error htext hoption (fun hhelp => hasks argument hhelp hreached)
      (hwastes argument hreached)
    rw [Settings.read_row hrow]
    cases choices.foldlM Settings.choose settings with
    | error early => exact ⟨early, rfl⟩
    | ok chosen => exact ⟨error, herror chosen⟩

/-- If nothing reached asks for the help or carries a value for nothing, `arguments` that are read are documented.
-/
theorem documented_of_read {arguments : List String} {settings : Settings} {request : Request}
    (hasks : AsksNothing arguments) (hwastes : WastesNothing arguments)
    (hread : settings.read arguments = .ok request) : Documented arguments := by
  refine Classical.byContradiction fun hnot => ?_
  obtain ⟨error, herror⟩ := exists_error_of_not_documented hasks hwastes hnot settings
  rw [hread] at herror
  cases herror

section Run

variable {m : Type → Type} [Monad m] [LawfulMonad m] (host : Host m) {arguments : List String}

/-- The run ends with this exit code, and asks the host for nothing but the kind of its standard output. -/
def EndsAtOnce (arguments : List String) (exit : Nat) : Prop :=
  Response.exit <$> run host arguments = (fun _ => exit) <$> host.isTerminal

theorem endsAtOnce_of_error (h : ∀ settings : Settings, ∃ error, settings.read arguments = .error error) :
    EndsAtOnce host arguments 2 := by
  unfold EndsAtOnce run
  rw [map_bind, map_eq_pure_bind]
  refine bind_congr fun color => ?_
  obtain ⟨error, herror⟩ := h { color }
  rw [herror, map_pure]

theorem endsAtOnce_of_help (h : ∀ color : Bool, ({ color } : Settings).read arguments = .ok .help ∨
    ({ color } : Settings).read arguments = .ok .version) : EndsAtOnce host arguments 0 := by
  unfold EndsAtOnce run
  rw [map_bind, map_eq_pure_bind]
  refine bind_congr fun color => ?_
  rcases h color with hread | hread
  · rw [hread, map_pure]
  · rw [hread, map_pure]

/-- Arguments that ask for neither the help nor the version are read only if they are documented, and end the run
with exit code 2 if they are not, unless one of them carries a value that it does not take: such a value is dropped.
Documented options make their choices one by one, with a value behind an equals sign as with one that follows, and
a switch for the help or the version ends the run with exit code 0 where it is reached. -/
theorem accepts_documented_options :
    (∀ arguments, AsksNothing arguments →
      (∀ settings read, Settings.read settings arguments = .ok (.label read) →
        (Documented arguments ↔ WastesNothing arguments)) ∧
      (WastesNothing arguments → ¬ Documented arguments → EndsAtOnce host arguments 2)) ∧
    ∀ choices front, Row choices front →
      (∀ settings rest, Settings.read settings (front ++ rest) =
        choices.foldlM Settings.choose settings >>= fun chosen => chosen.read rest) ∧
      (∀ name option, (name, option) ∈ valuedOptions → IsLong name → ∀ value settings rest,
        Settings.read settings (front ++ (name ++ "=" ++ value) :: rest) =
          settings.read (front ++ name :: value :: rest)) ∧
      (∀ name ∈ bareNames, ∀ value settings rest,
        Settings.read settings (front ++ (name ++ "=" ++ value) :: rest) = settings.read (front ++ name :: rest)) ∧
      ∀ name ∈ helpSwitches, (∀ color : Bool, ∃ chosen, choices.foldlM Settings.choose { color } = .ok chosen) →
        ∀ rest, EndsAtOnce host (front ++ name :: rest) 0 := by
  refine ⟨fun arguments hasks => ⟨fun settings read hread =>
      ⟨wastesNothing_of_documented, fun hwastes => documented_of_read hasks hwastes hread⟩,
    fun hwastes hnot => endsAtOnce_of_error host (exists_error_of_not_documented hasks hwastes hnot)⟩,
    fun choices front hrow => ⟨Settings.read_row hrow, ?_, ?_, ?_⟩⟩
  · intro name option hname hlong value settings rest
    rw [Settings.read_row hrow, Settings.read_row hrow]
    refine bind_congr fun chosen => ?_
    have hinline := Settings.read_written (.inline hname hlong value) chosen rest
    exact hinline.trans (Settings.read_written (.apart hname value) chosen rest).symm
  · intro name hname value settings rest
    rw [Settings.read_row hrow, Settings.read_row hrow]
    exact bind_congr fun chosen => Settings.read_carried hname value chosen rest
  · intro name hname hchosen rest
    refine endsAtOnce_of_help host fun color => ?_
    obtain ⟨chosen, hchosen⟩ := hchosen color
    rw [Settings.read_row hrow, hchosen]
    exact Settings.read_helpSwitch hname chosen rest

end Run

/-- A host without files and without a standard input. -/
def bareHost : Host Id where
  file _ := Except.error "No such file or directory (os error 2)"
  input := Except.ok .empty
  clock := (0 : Nat)
  isTerminal := false

/-- A short option does not take a value behind an equals sign, and the value of a long one may have such a sign
in it. -/
theorem accepts_documented_options_short_inline :
    let arguments := ["-e=x", "x"]
    AsksNothing arguments ∧ WastesNothing arguments ∧ ¬ Documented arguments ∧
      EndsAtOnce bareHost arguments 2 ∧ Row [.value .query "lucene"] ["--query", "lucene"] ∧
      Settings.read {} ["--query", "lucene", "--expr=a=b", "x"] =
        Settings.read {} ["--query", "lucene", "--expr", "a=b", "x"] := by
  intro arguments
  have hsplit : splitOption "-e=x" = ("-e=x", none) := by decide
  have hoption : ¬ BeginsWithOption arguments := fun h => absurd (h.name_mem hsplit) (by decide)
  have hfirst : ∀ name, Reaches arguments name → name = "-e=x" :=
    fun name hreached => hreached.eq_or_beginsWithOption.resolve_right hoption
  have hasks : AsksNothing arguments := by
    intro name hname hreached
    rw [hfirst name hreached] at hname
    exact absurd hname (by decide)
  have hwastes : WastesNothing arguments := by
    rintro argument hreached ⟨name, hname, value, rfl⟩
    have hcarried := splitOption_of_carries hname value
    rw [hfirst _ hreached, hsplit] at hcarried
    cases hcarried
  have hnot : ¬ Documented arguments := fun h => h.textPart_or_beginsWithOption.elim
    (not_textPart_cons (by decide) (by decide) _) hoption
  have hquery : ("--query", .query) ∈ valuedOptions := by simp [valuedOptions]
  have hrow : Row [.value .query "lucene"] ["--query", "lucene"] := Row.nil.cons (.apart hquery "lucene")
  obtain ⟨hundocumented, hdocumented⟩ := accepts_documented_options bareHost
  obtain ⟨-, hinline, -⟩ := hdocumented _ _ hrow
  exact ⟨hasks, hwastes, hnot, (hundocumented arguments hasks).2 hwastes hnot, hrow,
    hinline "--expr" .expression (by simp [valuedOptions]) (by decide) "a=b" {} ["x"]⟩

/-- A switch is taken with a value that says the opposite. -/
theorem accepts_switch_with_value :
    let arguments := ["--highlight=no", "-e", "x", "x"]
    AsksNothing arguments ∧ ¬ Documented arguments ∧
      (Settings.read {} arguments).toOption =
        some (.label { input := some "x", source := some (.expression "x"), highlight := true }) ∧
      (run bareHost arguments).exit = 0 := by
  intro arguments
  have hcarries : CarriesUnused "--highlight=no" := ⟨"--highlight", by decide, "no", by decide⟩
  obtain ⟨htext, hoption⟩ := hcarries.not_documented ["-e", "x", "x"]
  refine ⟨fun name hname hreached => ?_, fun h => h.textPart_or_beginsWithOption.elim htext hoption,
    by decide, by decide +kernel⟩
  obtain rfl := hreached.eq_or_beginsWithOption.resolve_right hoption
  exact absurd hname (by decide)

end Tagging.CommandLine
