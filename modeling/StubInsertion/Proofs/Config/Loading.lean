import StubInsertion.Config.Loading
import StubInsertion.Proofs.Files.Entries
import StubInsertion.Proofs.Source.Recognition
import StubInsertion.Proofs.Worlds

/-! # What a configuration loads

A block is loaded by looking at files, so what comes of it is a function of the files: `Config.load`
answers `Config.read` and `loadBlock` answers `Config.loadIn` (`Answers`, `answers_loadBlock`).

* **Documents.** `Sets t marker file` says that a document sets the marker and the block file as
  given, each of them or not, and sets nothing else.  Those are the documents that make a
  configuration (`ofTable_eq_ok_iff`).
* **Blocks.** `Suits marker text` says what a marker and a text have to be like to make a block
  (`Block.exists_make_iff`).
* **Loading.** `Asks fs c marker text` puts the documents together with the files that they name, and
  `loadBlock_asked` says that a block is loaded exactly when it is asked for and its marker and text
  suit. -/

namespace StubInsertion

variable {words : Toml.Wording} {fs : FileSystem} {marker text : String}

/-! ### Results -/

theorem mapError_eq_ok_iff {α ε ε' : Type} {x : Except ε α} {f : ε → ε'} {a : α} :
    x.mapError f = .ok a ↔ x = .ok a := by
  cases x <;> simp [Except.mapError]

theorem mapError_bind {α β ε ε' : Type} (x : Except ε α) (g : α → Except ε β) (f : ε → ε') :
    (x >>= g).mapError f = x.mapError f >>= fun a => (g a).mapError f := by
  cases x <;> rfl

/-- A check of all elements of a list passes if every one of them does. -/
theorem forM_eq_ok_iff {α ε : Type} {f : α → Except ε Unit} {as : List α} :
    as.forM f = .ok () ↔ ∀ a ∈ as, f a = .ok () := by
  induction as with
  | nil => simp [List.forM, pure, Except.pure]
  | cons a as ih =>
      show (f a >>= fun _ => as.forM f) = _ ↔ _
      rw [bind_eq_ok_iff, List.forall_mem_cons, ← ih]
      constructor
      · rintro ⟨⟨⟩, ha, has⟩
        exact ⟨ha, has⟩
      · rintro ⟨ha, has⟩
        exact ⟨(), ha, has⟩

/-! ### Documents -/

namespace Config

/-- The document sets the marker and the block file as given, and nothing else. -/
structure Sets (t : Toml.Table) (marker file : Option String) : Prop where
  entries : ∀ e ∈ t, (e.1.name = markerKey ∨ e.1.name = blockFileKey) ∧ ∃ s, e.2.2 = .string s
  marker : t.get? markerKey = marker.map .string
  file : t.get? blockFileKey = file.map .string

theorem stringOf_eq_ok_iff (wanted : String) {s : String} {value : Toml.Value} :
    stringOf wanted value = .ok s ↔ value = .string s := by
  cases value with
  | integer n =>
      cases n with
      | none => simp [stringOf]
      | some n =>
          simp only [stringOf]
          split <;> simp
  | float x => cases h : x.text? <;> simp [stringOf, h]
  | _ => simp [stringOf]

theorem check_eq_ok_iff {document : List Char} {e : Toml.Key × Toml.Span × Toml.Value} :
    check document e = .ok () ↔
      (e.1.name = markerKey ∨ e.1.name = blockFileKey) ∧ ∃ s, e.2.2 = .string s := by
  obtain ⟨key, span, value⟩ := e
  have hstring (wanted : String) :
      (∃ s, stringOf wanted value = .ok s) ↔ ∃ s, value = .string s :=
    exists_congr fun _ => stringOf_eq_ok_iff wanted
  have hkeys : blockFileKey ≠ markerKey := by decide
  unfold check
  by_cases hm : key.name = markerKey
  · rw [← hstring "a string"]
    cases h : stringOf "a string" value <;> simp [hm, h]
  · by_cases hf : key.name = blockFileKey
    · rw [← hstring "path string"]
      cases h : stringOf "path string" value <;> simp [hf, hkeys, h]
    · simp [hm, hf]

/-- Among strings every value is found as a string. -/
theorem get?_eq_map_text? {t : Toml.Table} (h : ∀ e ∈ t, ∃ s, e.2.2 = .string s) (key : String) :
    t.get? key = (text? t key).map .string := by
  unfold text? Toml.Table.get?
  cases hfind : List.find? (fun e => e.1.name = key) t with
  | none => rfl
  | some e =>
      obtain ⟨s, hs⟩ := h e (List.mem_of_find?_eq_some hfind)
      simp [hs]

theorem text?_of_get? {t : Toml.Table} {key : String} {s : Option String}
    (h : t.get? key = s.map .string) : text? t key = s := by
  unfold text?
  rw [h]
  cases s <;> rfl

/-- **The documents that make a configuration**, and the one that each makes. -/
theorem ofTable_eq_ok_iff {document : List Char} {t : Toml.Table} {config : Config} :
    ofTable document t = .ok config ↔ ∃ marker file, Sets t marker file ∧
      config = ⟨marker.getD Block.defaultMarker, file.map .ofString⟩ := by
  have hchecks : (inOrder t).forM (check document) = .ok () ↔
      ∀ e ∈ t, (e.1.name = markerKey ∨ e.1.name = blockFileKey) ∧ ∃ s, e.2.2 = .string s := by
    simp only [forM_eq_ok_iff, check_eq_ok_iff, inOrder, List.mem_mergeSort]
  unfold ofTable
  rw [bind_eq_ok_iff]
  constructor
  · rintro ⟨⟨⟩, hpass, hconfig⟩
    have hentries := hchecks.mp hpass
    have hstrings := fun e he => (hentries e he).2
    exact ⟨text? t markerKey, text? t blockFileKey,
      ⟨hentries, get?_eq_map_text? hstrings _, get?_eq_map_text? hstrings _⟩,
      (Except.ok.inj hconfig).symm⟩
  · rintro ⟨marker, file, h, rfl⟩
    refine ⟨(), hchecks.mpr h.entries, ?_⟩
    rw [text?_of_get? h.marker, text?_of_get? h.file]
    rfl

theorem parse_eq_ok_iff {document : String} {config : Config} :
    parse words document = .ok config ↔
      ∃ t, Toml.parse document.toList = .ok t ∧ ofTable document.toList t = .ok config := by
  unfold parse
  cases h : Toml.parse document.toList <;> simp [h, mapError_eq_ok_iff]

end Config

/-! ### Blocks -/

/-- The marker can be that of a block with the text: it can be seen, it stands on one line, and it
stands in the text. -/
structure Suits (marker text : String) : Prop where
  seen : ∃ c ∈ marker.toList, Text.isWhiteSpace c = false
  oneLine : '\n' ∉ marker.toList ∧ '\r' ∉ marker.toList
  carried : marker.toList <:+: text.toList

theorem Block.exists_make_iff : (∃ b, Block.make marker text = .ok b) ↔ Suits marker text := by
  have hseen : Text.isBlank marker = false ↔ ∃ c ∈ marker.toList, Text.isWhiteSpace c = false := by
    simp [Text.isBlank]
  have hline : hasLineBreak marker = false ↔ '\n' ∉ marker.toList ∧ '\r' ∉ marker.toList := by
    unfold hasLineBreak
    rw [List.any_eq_false]
    constructor
    · exact fun h => ⟨fun hmem => h _ hmem (by decide), fun hmem => h _ hmem (by decide)⟩
    · rintro ⟨hn, hr⟩ c hc hbreak
      rcases by simpa using hbreak with rfl | rfl
      · exact hn hc
      · exact hr hc
  rw [Block.exists_make_eq_ok_iff, Pattern.occursIn_of, Bytes.occursIn_iff, utf8_infix_iff, hseen,
    hline]
  exact ⟨fun ⟨h1, h2, h3⟩ => ⟨h1, h2, h3⟩, fun ⟨h1, h2, h3⟩ => ⟨h1, h2, h3⟩⟩

/-! ### Runs -/

/-- The block with this marker and text, or why there is none. -/
def built (during : List Activity) (marker text : String) : Except Failure Block :=
  (Block.make marker text).mapError fun reason => ⟨during, .block reason⟩

namespace Config

/-- What reading the configuration at `c` comes to. -/
def read (words : Toml.Wording) (fs : FileSystem) (c : Path) : Except Failure Config := do
  let document ← (fs.text c).mapError fun e => ⟨[.read c], .file e⟩
  (parse words document).mapError fun fault => ⟨[.parse c], .configuration fault⟩

/-- What comes of a block file that is shown as `p`; `text` is what reading it gives. -/
def fromFile (p : Path) (marker : String) (text : Except FileError String) :
    Except Failure Block := do
  let text ← text.mapError fun e => ⟨[.readBlock p], .file e⟩
  built [.checkBlock p] marker text

/-- The block that a configuration in the directory `base` comes to. -/
def blockIn (config : Config) (fs : FileSystem) (base : Path) : Except Failure Block :=
  match config.blockFile with
  | none => built [] config.marker Block.defaultText
  | some file => fromFile (base.join file) config.marker (fs.text (base.join file))

/-- The block that the configuration at `c` comes to. -/
def loadIn (words : Toml.Wording) (fs : FileSystem) (c : Path) : Except Failure Block := do
  let config ← read words fs c
  (config.blockIn fs (directory c)).mapError (Failure.within (.configureFrom c))

end Config

section answers

variable {α β : Type} {x : ExceptT Failure (StateM World) α} {f : FileSystem → Except Failure α}

/-- A run of `x` leaves the files as they are and answers what `f` says of them. -/
def Answers (x : ExceptT Failure (StateM World) α) (f : FileSystem → Except Failure α) : Prop :=
  ∀ w, (runIn w x).1 = f w.files ∧ (runIn w x).2.files = w.files

theorem Answers.bind (hx : Answers x f) {g : α → ExceptT Failure (StateM World) β}
    {h : α → FileSystem → Except Failure β} (hg : ∀ a, Answers (g a) (h a)) :
    Answers (x >>= g) fun fs => f fs >>= fun a => h a fs := by
  intro w
  obtain ⟨hanswer, hfiles⟩ := hx w
  obtain ⟨result, w', hrun⟩ : ∃ result w', runIn w x = (result, w') := ⟨_, _, rfl⟩
  rw [hrun] at hanswer hfiles
  show (runIn w (x >>= g)).1 = (f w.files >>= fun a => h a w.files) ∧ _
  rw [← hanswer]
  cases result with
  | error failure =>
      rw [runIn_bind_error hrun]
      exact ⟨rfl, hfiles⟩
  | ok a =>
      rw [runIn_bind_ok hrun, ← hfiles]
      exact hg a w'

theorem Answers.adapt (hx : Answers x f) (g : Failure → Failure) :
    Answers (ExceptT.adapt g x) fun fs => (f fs).mapError g := by
  intro w
  obtain ⟨hanswer, hfiles⟩ := hx w
  exact ⟨congrArg (Except.mapError g) hanswer, hfiles⟩

/-- A call that looks at the files. -/
theorem answers_look (activity : Activity) (look : FileSystem → Except FileError α) :
    Answers (attempt activity (World.look look)) fun fs =>
      (look fs).mapError fun e => ⟨[activity], .file e⟩ := by
  intro w
  show (runIn w (attempt activity (World.look look))).1 = (look w.files).mapError _ ∧ _
  cases hlook : look w.files with
  | error e =>
      rw [runIn_attempt_error activity (World.look_error hlook)]
      exact ⟨rfl, rfl⟩
  | ok a =>
      rw [runIn_attempt_ok activity (World.look_ok hlook)]
      exact ⟨rfl, rfl⟩

end answers

/-- A text file is read by looking at it once. -/
theorem answers_readText (activity : Activity) (p : Path) :
    Answers (readText activity p) fun fs =>
      (fs.text p).mapError fun e => ⟨[activity], .file e⟩ := by
  simp only [FileSystem.text, mapError_bind]
  refine (answers_look activity fun fs => fs.contents p).bind fun bytes => ?_
  cases Utf8.toString? bytes <;> exact fun _ => ⟨rfl, rfl⟩

theorem answers_makeBlock (during : List Activity) :
    Answers (makeBlock during marker text) fun _ => built during marker text := by
  unfold makeBlock built
  cases Block.make marker text <;> exact fun _ => ⟨rfl, rfl⟩

namespace Config

theorem answers_load (words : Toml.Wording) (c : Path) :
    Answers (load words c) fun fs => read words fs c :=
  (answers_readText (.read c) c).bind fun document => by
    cases parse words document <;> exact fun _ => ⟨rfl, rfl⟩

theorem answers_block (config : Config) (base : Path) :
    Answers (config.block base) fun fs => config.blockIn fs base := by
  unfold block blockIn
  cases config.blockFile with
  | none => exact answers_makeBlock []
  | some file => exact (answers_readText _ _).bind fun _ => answers_makeBlock _

end Config

/-- **What loading a block answers is settled by the files.** -/
theorem answers_loadBlock (words : Toml.Wording) (c : Path) :
    Answers (loadBlock words (some c)) fun fs => Config.loadIn words fs c :=
  (Config.answers_load words c).bind fun config => (config.answers_block _).adapt _

/-! ### Loading -/

namespace Config

/-- The configuration at `c` asks for a block with this marker and this text: the marker is the one
that it sets, or the built-in one, and the text is that of the block file beside it, or the built-in
one. -/
inductive Asks (fs : FileSystem) (c : Path) : (marker text : String) → Prop
  | builtIn {document : String} {t : Toml.Table} {marker : Option String} :
      fs.text c = .ok document → Toml.parse document.toList = .ok t → Sets t marker none →
      Asks fs c (marker.getD Block.defaultMarker) Block.defaultText
  | fromFile {document text file : String} {t : Toml.Table} {marker : Option String} :
      fs.text c = .ok document → Toml.parse document.toList = .ok t → Sets t marker (some file) →
      fs.text ((directory c).join (.ofString file)) = .ok text →
      Asks fs c (marker.getD Block.defaultMarker) text

theorem read_eq_ok_iff {c : Path} {config : Config} :
    read words fs c = .ok config ↔ ∃ document t, fs.text c = .ok document ∧
      Toml.parse document.toList = .ok t ∧ ofTable document.toList t = .ok config := by
  unfold read
  simp only [bind_eq_ok_iff, mapError_eq_ok_iff, parse_eq_ok_iff]
  constructor
  · rintro ⟨document, hread, t, hparse, htable⟩
    exact ⟨document, t, hread, hparse, htable⟩
  · rintro ⟨document, t, hread, hparse, htable⟩
    exact ⟨document, hread, t, hparse, htable⟩

theorem fromFile_eq_ok_iff {p : Path} {answer : Except FileError String} {b : Block} :
    fromFile p marker answer = .ok b ↔ ∃ text, answer = .ok text ∧ b.marker = marker ∧
      b.text = text := by
  simp only [fromFile, built, bind_eq_ok_iff, mapError_eq_ok_iff, Block.make_eq_ok_iff]

/-- The blocks that are loaded are those that are asked for. -/
theorem loadIn_eq_ok_iff {c : Path} {b : Block} :
    loadIn words fs c = .ok b ↔ Asks fs c b.marker b.text := by
  unfold loadIn
  simp only [bind_eq_ok_iff, mapError_eq_ok_iff, read_eq_ok_iff, ofTable_eq_ok_iff]
  constructor
  · rintro ⟨config, ⟨document, t, hread, hparse, marker, file, hsets, rfl⟩, hblock⟩
    cases file with
    | none =>
        obtain ⟨hmarker, htext⟩ := Block.make_eq_ok_iff.mp (mapError_eq_ok_iff.mp hblock)
        rw [hmarker, htext]
        exact .builtIn hread hparse hsets
    | some file =>
        obtain ⟨text, hfile, hmarker, htext⟩ := fromFile_eq_ok_iff.mp hblock
        rw [hmarker, htext]
        exact .fromFile hread hparse hsets hfile
  · intro h
    generalize hmarker : b.marker = marker at h
    generalize htext : b.text = text at h
    cases h with
    | builtIn hread hparse hsets =>
        exact ⟨_, ⟨_, _, hread, hparse, _, _, hsets, rfl⟩,
          mapError_eq_ok_iff.mpr (Block.make_eq_ok_iff.mpr ⟨hmarker, htext⟩)⟩
    | fromFile hread hparse hsets hfile =>
        exact ⟨_, ⟨_, _, hread, hparse, _, _, hsets, rfl⟩,
          fromFile_eq_ok_iff.mpr ⟨_, hfile, hmarker, htext⟩⟩

end Config

/-- **A block is loaded exactly when it is asked for and its marker and text suit**, and then it is
the one that is asked for; anything else is a failure.  Without a configuration it is the built-in
one.  So every block that is loaded is recognised in its own text. -/
theorem loadBlock_asked (words : Toml.Wording) (w : World) :
    (runIn w (loadBlock words none)).1 = .ok Block.default ∧
    (∀ c marker text, (∃ b, (runIn w (loadBlock words (some c))).1 = .ok b ∧
        b.marker = marker ∧ b.text = text) ↔
      Config.Asks w.files c marker text ∧ Suits marker text) ∧
    (∀ c, (∃ failure, (runIn w (loadBlock words (some c))).1 = .error failure) ↔
      ¬ ∃ marker text, Config.Asks w.files c marker text ∧ Suits marker text) ∧
    ∀ config b, (runIn w (loadBlock words config)).1 = .ok b →
      Suits b.marker b.text ∧ Source.isMarked b.bytes b.mark = true := by
  have hsuits (b : Block) : Suits b.marker b.text :=
    Block.exists_make_iff.mp ⟨b, Block.make_eq_ok_iff.mpr ⟨rfl, rfl⟩⟩
  have hasked (c : Path) (marker text : String) :
      (∃ b, (runIn w (loadBlock words (some c))).1 = .ok b ∧
          b.marker = marker ∧ b.text = text) ↔
        Config.Asks w.files c marker text ∧ Suits marker text := by
    rw [(answers_loadBlock words c w).1]
    constructor
    · rintro ⟨b, hb, rfl, rfl⟩
      exact ⟨Config.loadIn_eq_ok_iff.mp hb, hsuits b⟩
    · rintro ⟨hasks, hs⟩
      obtain ⟨b, hb⟩ := Block.exists_make_iff.mpr hs
      obtain ⟨rfl, rfl⟩ := Block.make_eq_ok_iff.mp hb
      exact ⟨b, Config.loadIn_eq_ok_iff.mpr hasks, rfl, rfl⟩
  refine ⟨rfl, hasked, fun c => ?_, fun _ b _ => ⟨hsuits b, ?_⟩⟩
  · simp only [← hasked]
    cases (runIn w (loadBlock words (some c))).1 <;> simp
  · exact b.isMarked_mark_iff.mpr b.mark_infix_bytes

/-- A configuration `d/c.toml`, the block file `m.txt` that it names, and a link `l` to the directory
`d`. -/
def Config.sample : FileSystem :=
  (((FileSystem.initial.add ⟨4, utf8 "d"⟩ (.directory 0o755 4)).add ⟨5, utf8 "c.toml"⟩
      (.file 0o644 (utf8 "block_file = '../m.txt'\n"))).add ⟨4, utf8 "m.txt"⟩
    (.file 0o644 (utf8 "# STATIC_IMPORT_MARK\n"))).add ⟨4, utf8 "l"⟩ (.symlink (.ofString "d"))

/-- The configuration leaves the marker out and asks for the text of its block file: the block that is
loaded has the built-in marker and this text. -/
theorem loadBlock_asked_sample : ∃ b,
    (runIn (World.of Config.sample .unlimited)
        (loadBlock Toml.plainWording (some (.ofString "d/c.toml")))).1 = .ok b ∧
      b.marker = "STATIC_IMPORT_MARK" ∧ b.text = "# STATIC_IMPORT_MARK\n" ∧
      Config.Asks Config.sample (.ofString "d/c.toml") "STATIC_IMPORT_MARK"
        "# STATIC_IMPORT_MARK\n" ∧
      Suits "STATIC_IMPORT_MARK" "# STATIC_IMPORT_MARK\n" ∧
      Source.isMarked b.bytes b.mark = true := by
  have hloaded : (runIn (World.of Config.sample .unlimited)
      (loadBlock Toml.plainWording (some (.ofString "d/c.toml")))).1.map
        (fun b => (b.marker, b.text)) =
      .ok ("STATIC_IMPORT_MARK", "# STATIC_IMPORT_MARK\n") := by decide +kernel
  cases hload : (runIn (World.of Config.sample .unlimited)
      (loadBlock Toml.plainWording (some (.ofString "d/c.toml")))).1 with
  | error failure =>
      rw [hload] at hloaded
      cases hloaded
  | ok b =>
      rw [hload] at hloaded
      obtain ⟨hmarker, htext⟩ := Prod.mk.inj (Except.ok.inj hloaded)
      obtain ⟨-, hasked, -, hall⟩ :=
        loadBlock_asked Toml.plainWording (World.of Config.sample .unlimited)
      obtain ⟨hasks, hsuits⟩ := (hasked _ _ _).mp ⟨b, hload, hmarker, htext⟩
      exact ⟨b, rfl, hmarker, htext, hasks, hsuits, (hall _ b hload).2⟩

end StubInsertion
