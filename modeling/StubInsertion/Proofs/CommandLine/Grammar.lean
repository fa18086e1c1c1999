import StubInsertion.CommandLine.Arguments

/-! # The grammar of the command line

`Spells args config files` lists the ways to write a configuration and a list of files as arguments.
Reading arguments accepts exactly what is written so, with at least one file
(`parse_eq_process_iff`), so the files of a request are the file arguments in their order.

`AsksHelp args` says that an argument asks for help before any argument is wrong
(`parse_eq_help_iff`).  All other arguments are rejected (`parse_eq_none_iff`). -/

namespace StubInsertion.Request

/-- The arguments are this configuration and these files: files and the configuration in any order,
and behind `--` files only. -/
inductive Spells : List Bytes → Option Path → List Path → Prop
  | nil : Spells [] none []
  | rest {names : List Bytes} : (∀ name ∈ names, name ≠ []) →
      Spells (utf8 "--" :: names) none (names.map Path.mk)
  | file {arg args config files} : arg ≠ [] → isOption arg = false → Spells args config files →
      Spells (arg :: args) config (⟨arg⟩ :: files)
  | config {value args files} : value ≠ [] → isOption value = false → Spells args none files →
      Spells (utf8 "--config" :: value :: args) (some ⟨value⟩) files
  | configIs {value args files} : value ≠ [] → Spells args none files →
      Spells ((utf8 "--config=" ++ value) :: args) (some ⟨value⟩) files

variable {args : List Bytes} {config config' : Option Path} {files files' : List Path}

/-- Every file has a name. -/
theorem Spells.named (h : Spells args config files) : ∀ p ∈ files, p.bytes ≠ [] := by
  induction h with
  | nil => simp
  | rest hnames =>
      intro p hp
      obtain ⟨name, hname, rfl⟩ := List.mem_map.mp hp
      exact hnames name hname
  | file hne _ _ ih => exact List.forall_mem_cons.mpr ⟨hne, ih⟩
  | config _ _ _ ih => exact ih
  | configIs _ _ ih => exact ih

theorem ofFiles_eq_process_iff :
    ofFiles config files = some (.process config' files') ↔
      config' = config ∧ files' = files ∧ files ≠ [] ∧ ∀ p ∈ files, p.bytes ≠ [] := by
  unfold ofFiles
  split
  · rename_i h
    simp only [Bool.or_eq_true, List.isEmpty_iff, List.any_eq_true] at h
    grind
  · rename_i h
    simp only [Bool.or_eq_true, List.isEmpty_iff, List.any_eq_true] at h
    grind

/-! ### What is accepted is spelled so -/

/-- The arguments spell the rest of a request of which some was read before. -/
theorem spells_of_parseFrom (h : parseFrom config files args = some (.process config' files')) :
    ∃ c fs, Spells args c fs ∧ config' = config.or c ∧ (config = none ∨ c = none) ∧
      files' = files ++ fs ∧ files' ≠ [] := by
  fun_induction parseFrom config files args with
  | case1 config files =>
      obtain ⟨rfl, rfl, hne, -⟩ := ofFiles_eq_process_iff.mp h
      exact ⟨none, [], .nil, by simp, .inr rfl, by simp, hne⟩
  | case2 config files names =>
      obtain ⟨rfl, rfl, hne, hnames⟩ := ofFiles_eq_process_iff.mp h
      refine ⟨none, _, .rest fun name hname => ?_, by simp, .inr rfl, rfl, hne⟩
      exact hnames ⟨name⟩ (List.mem_append_right _ (List.mem_map_of_mem hname))
  | case6 config files value args hvalue _ _ ih =>
      simp only [Bool.or_eq_true, not_or, Bool.not_eq_true, Option.isSome_eq_false_iff,
        Option.isNone_iff_eq_none] at hvalue
      obtain ⟨⟨rfl, hne⟩, hoption⟩ := hvalue
      obtain ⟨c, fs, hs, rfl, hc, hfiles⟩ := ih h
      obtain rfl : c = none := hc.resolve_left (by simp)
      exact ⟨_, fs, .config (by simpa using hne) hoption hs, rfl, .inl rfl, hfiles⟩
  | case8 config files arg args _ _ _ value hafter hvalue ih =>
      simp only [Bool.or_eq_true, not_or, Bool.not_eq_true, Option.isSome_eq_false_iff,
        Option.isNone_iff_eq_none] at hvalue
      obtain ⟨rfl, hne⟩ := hvalue
      obtain ⟨c, fs, hs, rfl, hc, hfiles⟩ := ih h
      obtain rfl : c = none := hc.resolve_left (by simp)
      rw [Bytes.after?_eq_some_iff] at hafter
      subst hafter
      exact ⟨_, fs, .configIs (by simpa using hne) hs, rfl, .inl rfl, hfiles⟩
  | case11 config files arg args _ _ _ _ _ harg ih =>
      simp only [Bool.or_eq_true, not_or, Bool.not_eq_true] at harg
      obtain ⟨c, fs, hs, hconfig, hc, rfl, hne⟩ := ih h
      exact ⟨c, _, .file (by simpa using harg.1) harg.2 hs, hconfig, hc,
        by rw [List.append_assoc, List.singleton_append], hne⟩
  | _ => cases h

/-! ### What is spelled so is accepted -/

/-- An argument that is no option starts with no word that is one. -/
theorem not_prefix_of_not_option {arg word : Bytes} (h : isOption arg = false)
    (hword : isOption word = true) : ¬ word <+: arg := by
  rintro ⟨rest, rfl⟩
  simp only [isOption, Bool.and_eq_true, decide_eq_true_eq, List.isPrefixOf_iff_prefix] at hword
  obtain ⟨⟨tail, rfl⟩, hne⟩ := hword
  simp [isOption, utf8] at h hne
  exact hne h.1

/-- An argument that starts with a word is none that does not. -/
theorem append_ne {word rest arg : Bytes} (h : ¬ word <+: arg) : word ++ rest ≠ arg := by
  rintro rfl
  exact h (List.prefix_append word rest)

/-- Nothing follows a word that the argument does not start with. -/
theorem after?_eq_none {word arg : Bytes} (h : ¬ word <+: arg) : Bytes.after? word arg = none := by
  cases hafter : Bytes.after? word arg with
  | none => rfl
  | some value =>
      rw [Bytes.after?_eq_some_iff] at hafter
      exact absurd ⟨value, hafter.symm⟩ h

theorem parseFrom_file {arg : Bytes} (hne : arg ≠ []) (h : isOption arg = false) :
    parseFrom config files (arg :: args) = parseFrom config (files ++ [⟨arg⟩]) args := by
  have hword (word : Bytes) (hword : isOption word = true) : arg ≠ word := by
    rintro rfl
    exact not_prefix_of_not_option h hword List.prefix_rfl
  have hhelp : (utf8 "-h").isPrefixOf arg = false := by
    have hword : isOption (utf8 "-h") = true := by decide
    have := not_prefix_of_not_option h hword
    rwa [← List.isPrefixOf_iff_prefix, Bool.not_eq_true] at this
  have hconfig : Bytes.after? (utf8 "--config=") arg = none :=
    after?_eq_none (not_prefix_of_not_option h (by decide))
  rw [parseFrom.eq_def]
  dsimp only
  rw [if_neg (hword _ (by decide)), if_neg (hword _ (by decide)),
    if_neg (hword _ (by decide)), hconfig]
  simp [hhelp, hne, h]

theorem parseFrom_config {value : Bytes} (hne : value ≠ []) (h : isOption value = false) :
    parseFrom none files (utf8 "--config" :: value :: args) =
      parseFrom (some ⟨value⟩) files args := by
  rw [parseFrom.eq_def]
  dsimp only
  rw [if_neg (by decide), if_neg (by decide), if_pos rfl]
  simp [hne, h]

theorem parseFrom_configIs {value : Bytes} (hne : value ≠ []) :
    parseFrom none files ((utf8 "--config=" ++ value) :: args) =
      parseFrom (some ⟨value⟩) files args := by
  rw [parseFrom.eq_def]
  dsimp only
  rw [if_neg (append_ne (by decide)), if_neg (append_ne (by decide)),
    if_neg (append_ne (by decide)), Bytes.after?_eq_some_iff.mpr rfl]
  simp [hne]

theorem parseFrom_of_spells (h : Spells args config' files')
    (hconfig : config = none ∨ config' = none) (hnamed : ∀ p ∈ files, p.bytes ≠ [])
    (hne : files ++ files' ≠ []) :
    parseFrom config files args = some (.process (config.or config') (files ++ files')) := by
  induction h generalizing config files with
  | nil =>
      rw [List.append_nil] at hne ⊢
      rw [parseFrom, Option.or_none]
      exact ofFiles_eq_process_iff.mpr ⟨rfl, rfl, hne, hnamed⟩
  | rest hnames =>
      rw [parseFrom.eq_def, Option.or_none]
      dsimp only
      rw [if_pos rfl]
      have hrest := (Spells.rest hnames).named
      exact ofFiles_eq_process_iff.mpr ⟨rfl, rfl, hne, List.forall_mem_append.mpr ⟨hnamed, hrest⟩⟩
  | @file arg _ _ _ harg hoption hs ih =>
      have hnamed' : ∀ p ∈ files ++ [⟨arg⟩], p.bytes ≠ [] := by
        rw [List.forall_mem_append, List.forall_mem_singleton]
        exact ⟨hnamed, harg⟩
      rw [parseFrom_file harg hoption, ih hconfig hnamed' (by simp), List.append_assoc,
        List.singleton_append]
  | config hvalue hoption hs ih =>
      obtain rfl : config = none := hconfig.resolve_right (by simp)
      rw [parseFrom_config hvalue hoption, ih (.inr rfl) hnamed hne]
      rfl
  | configIs hvalue hs ih =>
      obtain rfl : config = none := hconfig.resolve_right (by simp)
      rw [parseFrom_configIs hvalue, ih (.inr rfl) hnamed hne]
      rfl

/-- **Reading accepts exactly what is spelled with at least one file.** -/
theorem parse_eq_process_iff :
    parse args = some (.process config files) ↔ Spells args config files ∧ files ≠ [] := by
  constructor
  · intro h
    obtain ⟨c, fs, hs, rfl, -, rfl, hne⟩ := spells_of_parseFrom h
    exact ⟨hs, hne⟩
  · rintro ⟨hs, hne⟩
    exact parseFrom_of_spells hs (.inl rfl) (by simp) hne

/-! ### Requests for help -/

/-- The argument asks for help. -/
def IsHelp (arg : Bytes) : Prop := arg = utf8 "--help" ∨ utf8 "-h" <+: arg

/-- An argument asks for help, and those ahead of it are files and perhaps a configuration. -/
def AsksHelp (args : List Bytes) : Prop := ∃ ahead config files flag behind,
  args = ahead ++ flag :: behind ∧ IsHelp flag ∧ Spells ahead config files ∧ utf8 "--" ∉ ahead

theorem parseFrom_help {flag : Bytes} (h : IsHelp flag) :
    parseFrom config files (flag :: args) = some .help := by
  rcases h with rfl | ⟨rest, rfl⟩
  · rw [parseFrom.eq_def]
    dsimp only
    rw [if_neg (by decide), if_pos rfl]
  · have hflag : utf8 "-h" <+: utf8 "-h" ++ rest := List.prefix_append _ rest
    have hconfig : Bytes.after? (utf8 "--config=") (utf8 "-h" ++ rest) = none :=
      after?_eq_none fun h => absurd
        (List.prefix_of_prefix_length_le hflag h (by decide)) (by decide)
    rw [← List.isPrefixOf_iff_prefix] at hflag
    rw [parseFrom.eq_def]
    dsimp only
    rw [if_neg (append_ne (by decide)), if_neg (append_ne (by decide)),
      if_neg (append_ne (by decide)), hconfig]
    simp [hflag]

/-- Reading goes on behind files and a configuration. -/
theorem parseFrom_append {ahead : List Bytes} (h : Spells ahead config' files')
    (hrest : utf8 "--" ∉ ahead) (hconfig : config = none ∨ config' = none) :
    parseFrom config files (ahead ++ args) =
      parseFrom (config.or config') (files ++ files') args := by
  induction h generalizing config files with
  | nil => simp
  | rest hnames => simp at hrest
  | file harg hoption hs ih =>
      rw [List.cons_append, parseFrom_file harg hoption,
        ih (fun hmem => hrest (List.mem_cons_of_mem _ hmem)) hconfig, List.append_assoc,
        List.singleton_append]
  | config hvalue hoption hs ih =>
      obtain rfl : config = none := hconfig.resolve_right (by simp)
      rw [List.cons_append, List.cons_append, parseFrom_config hvalue hoption,
        ih (fun hmem => hrest (List.mem_cons_of_mem _ (List.mem_cons_of_mem _ hmem))) (.inr rfl)]
      rfl
  | configIs hvalue hs ih =>
      obtain rfl : config = none := hconfig.resolve_right (by simp)
      rw [List.cons_append, parseFrom_configIs hvalue,
        ih (fun hmem => hrest (List.mem_cons_of_mem _ hmem)) (.inr rfl)]
      rfl

theorem ofFiles_ne_help : ofFiles config files ≠ some .help := by
  unfold ofFiles
  split <;> simp

theorem exists_of_parseFrom_help (h : parseFrom config files args = some .help) :
    ∃ ahead c fs flag behind, args = ahead ++ flag :: behind ∧ IsHelp flag ∧ Spells ahead c fs ∧
      utf8 "--" ∉ ahead ∧ (config = none ∨ c = none) := by
  fun_induction parseFrom config files args with
  | case1 => exact absurd h ofFiles_ne_help
  | case2 => exact absurd h ofFiles_ne_help
  | case3 config files behind =>
      exact ⟨[], none, [], _, behind, rfl, .inl rfl, .nil, List.not_mem_nil, .inr rfl⟩
  | case6 config files value args hvalue _ _ ih =>
      simp only [Bool.or_eq_true, not_or, Bool.not_eq_true, Option.isSome_eq_false_iff,
        Option.isNone_iff_eq_none] at hvalue
      obtain ⟨⟨rfl, hne⟩, hoption⟩ := hvalue
      obtain ⟨ahead, c, fs, flag, behind, rfl, hflag, hs, hrest, hc⟩ := ih h
      obtain rfl : c = none := hc.resolve_left (by simp)
      have hvalue : utf8 "--" ≠ value := by
        rintro rfl
        exact absurd hoption (by decide)
      refine ⟨_ :: value :: ahead, _, fs, flag, behind, rfl, hflag,
        .config (by simpa using hne) hoption hs, ?_, .inl rfl⟩
      simp only [List.mem_cons, not_or]
      exact ⟨by decide, hvalue, hrest⟩
  | case8 config files arg args hword _ _ value hafter hvalue ih =>
      simp only [Bool.or_eq_true, not_or, Bool.not_eq_true, Option.isSome_eq_false_iff,
        Option.isNone_iff_eq_none] at hvalue
      obtain ⟨rfl, hne⟩ := hvalue
      obtain ⟨ahead, c, fs, flag, behind, rfl, hflag, hs, hrest, hc⟩ := ih h
      obtain rfl : c = none := hc.resolve_left (by simp)
      rw [Bytes.after?_eq_some_iff] at hafter
      subst hafter
      refine ⟨_ :: ahead, _, fs, flag, behind, rfl, hflag, .configIs (by simpa using hne) hs, ?_,
        .inl rfl⟩
      exact List.not_mem_cons_of_ne_of_not_mem (Ne.symm hword) hrest
  | case9 config files flag behind _ _ _ _ hflag =>
      rw [List.isPrefixOf_iff_prefix] at hflag
      exact ⟨[], none, [], flag, behind, rfl, .inr hflag, .nil, List.not_mem_nil, .inr rfl⟩
  | case11 config files arg args hword _ _ _ _ harg ih =>
      simp only [Bool.or_eq_true, not_or, Bool.not_eq_true] at harg
      obtain ⟨ahead, c, fs, flag, behind, rfl, hflag, hs, hrest, hc⟩ := ih h
      refine ⟨arg :: ahead, c, _, flag, behind, rfl, hflag,
        .file (by simpa using harg.1) harg.2 hs, ?_, hc⟩
      exact List.not_mem_cons_of_ne_of_not_mem (Ne.symm hword) hrest
  | _ => cases h

theorem parse_eq_help_iff : parse args = some .help ↔ AsksHelp args := by
  constructor
  · intro h
    obtain ⟨ahead, c, fs, flag, behind, heq, hflag, hs, hrest, -⟩ := exists_of_parseFrom_help h
    exact ⟨ahead, c, fs, flag, behind, heq, hflag, hs, hrest⟩
  · rintro ⟨ahead, c, fs, flag, behind, rfl, hflag, hs, hrest⟩
    rw [parse, parseFrom_append hs hrest (.inl rfl), parseFrom_help hflag]

/-! ### Rejected arguments -/

/-- The arguments neither ask for help nor spell a request to process files. -/
structure Rejected (args : List Bytes) : Prop where
  no_help : ¬ AsksHelp args
  no_files : ∀ config files, Spells args config files → files = []

theorem parse_eq_none_iff : parse args = none ↔ Rejected args := by
  constructor
  · intro h
    refine ⟨fun hhelp => ?_, fun config files hs => ?_⟩
    · rw [parse_eq_help_iff.mpr hhelp] at h
      cases h
    · by_cases hfiles : files = []
      · exact hfiles
      · rw [parse_eq_process_iff.mpr ⟨hs, hfiles⟩] at h
        cases h
  · intro h
    cases hparse : parse args with
    | none => rfl
    | some request =>
        cases request with
        | help => exact absurd (parse_eq_help_iff.mp hparse) h.no_help
        | process config files =>
            obtain ⟨hs, hne⟩ := parse_eq_process_iff.mp hparse
            exact absurd (h.no_files config files hs) hne

end StubInsertion.Request
