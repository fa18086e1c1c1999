import StubInsertion.Proofs.Config.Loading
import StubInsertion.Proofs.Files.Alike
import StubInsertion.Proofs.Files.Spelling

/-! # The directory of a configuration

The block file that a configuration names is looked up from the directory of the configuration.

* **Names.** A configuration that can be read has a name (`name_of_text`), so its directory is the
  parent of its path (`tidies_directory`).
* **Block files.** `loadBlock_beside` says which file the block is read from: the one that is named,
  if the name is absolute, and otherwise the one to which the path of the configuration leads with
  the last name replaced.
* **Length.** The path that is looked up leaves out what leads nowhere, so it may be short enough
  where the other one is not (`roundabout_read`). -/

namespace StubInsertion
namespace Config

variable {words : Toml.Wording} {w : World} {fs : FileSystem} {c f : Path}

/-- What can be read has a name. -/
theorem name_of_text {document : String} (h : fs.text c = .ok document) :
    0 ∉ c.bytes ∧ c.endsInSlash = false ∧
      ∃ init name, c.names = init ++ [name] ∧ name ≠ Path.dot := by
  obtain ⟨bytes, hcontents, -⟩ := bind_eq_ok_iff.mp h
  obtain ⟨i, hi, hdir⟩ := FileSystem.exists_resolve_of_contents hcontents
  obtain ⟨hadm, s, hl, -⟩ := FileSystem.exists_locates hi hdir
  obtain ⟨init, m, hnames, -⟩ := hl.way
  exact ⟨(Path.admit_eq_ok_iff.mp hadm).1, hl.no_slash, init, s.name, hnames,
    (hl.plain_of_resolve hi hdir).ne_dot⟩

/-- Beside a configuration that can be read, a relative path has a shorter spelling of the path that
takes the place of the configuration. -/
theorem tidies_directory {document : String} (h : fs.text c = .ok document)
    (hf : f.isAbsolute = false) (hne : f.bytes ≠ []) :
    Path.Tidies ((directory c).join f) (c.withLast f) := by
  obtain ⟨hzero, hslash, hname⟩ := name_of_text h
  obtain ⟨base, hparent, htidies⟩ := Path.tidies_join_parent hzero hname hslash hf hne
  rwa [directory, hparent]

/-- What loading a block answers if the configuration at `c` sets the marker and the block is read
from `p`; `text` is what reading it gives. -/
def answerFrom (c p : Path) (marker : String) (text : Except FileError String) :
    Except Failure Block :=
  (fromFile p marker text).mapError (Failure.within (.configureFrom c))

theorem loadBlock_of_blockFile {config : Config} (hload : (runIn w (load words c)).1 = .ok config)
    (hfile : config.blockFile = some f) :
    (runIn w (loadBlock words (some c))).1 =
      answerFrom c ((directory c).join f) config.marker (w.files.text ((directory c).join f)) := by
  have hread : read words w.files c = .ok config := (answers_load words c w).1.symm.trans hload
  have hblock : loadIn words w.files c = answerFrom c ((directory c).join f) config.marker
      (w.files.text ((directory c).join f)) := by
    rw [loadIn, hread]
    show (config.blockIn w.files (directory c)).mapError _ = _
    rw [blockIn, hfile]
    rfl
  exact (answers_loadBlock words c w).1.trans hblock

/-- **A block file is looked up from the directory of the configuration.**  An absolute one is read
as it is.  A relative one is looked up along the names of the path that takes the place of the
configuration, and what comes of it is what comes of that path, unless that path is too long and
the one without the pieces that lead nowhere is not. -/
theorem loadBlock_beside (words : Toml.Wording) (w : World) (c f : Path) (config : Config)
    (hload : (runIn w (load words c)).1 = .ok config) (hfile : config.blockFile = some f)
    (hne : f.bytes ≠ []) :
    (f.isAbsolute = true → (runIn w (loadBlock words (some c))).1 =
      answerFrom c f config.marker (w.files.text f)) ∧
    (f.isAbsolute = false →
      (runIn w (loadBlock words (some c))).1 =
        answerFrom c ((directory c).join f) config.marker
          (w.files.text ((directory c).join f)) ∧
      w.files.find .visit ((directory c).join f) = w.files.find .visit (c.withLast f) ∧
      ((c.withLast f).bytes.length ≤ maxPath ∨ maxPath < ((directory c).join f).bytes.length →
        w.files.resolve ((directory c).join f) = w.files.resolve (c.withLast f) ∧
        (runIn w (loadBlock words (some c))).1 =
          answerFrom c ((directory c).join f) config.marker (w.files.text (c.withLast f)))) := by
  have hanswer := loadBlock_of_blockFile hload hfile
  constructor
  · intro hf
    have hjoin : (directory c).join f = f := by rw [Path.join, hf]; rfl
    rwa [hjoin] at hanswer
  · intro hf
    obtain ⟨document, t, hread, -⟩ :=
      read_eq_ok_iff.mp ((answers_load words c w).1.symm.trans hload)
    have htidies := tidies_directory hread hf hne
    refine ⟨hanswer, htidies.find w.files .visit, fun hlen => ?_⟩
    have hresolve := htidies.resolve w.files hlen
    exact ⟨hresolve, by rw [hanswer, Path.text_congr hresolve]⟩

/-- A configuration that is reached through a link, with a block file above the directory to which
the link leads. -/
theorem loadBlock_beside_link :
    (runIn (World.of sample .unlimited) (load Toml.plainWording (.ofString "l//.//c.toml"))).1 =
        .ok ⟨Block.defaultMarker, some (.ofString "../m.txt")⟩ ∧
      sample.resolve ((directory (.ofString "l//.//c.toml")).join (.ofString "../m.txt")) =
        sample.resolve (.ofString "l//.//../m.txt") ∧
      (runIn (World.of sample .unlimited)
          (loadBlock Toml.plainWording (some (.ofString "l//.//c.toml")))).1 =
        answerFrom (.ofString "l//.//c.toml") (.ofString "l/../m.txt") Block.defaultMarker
          (sample.text (.ofString "l//.//../m.txt")) := by
  have hload : (runIn (World.of sample .unlimited)
      (load Toml.plainWording (.ofString "l//.//c.toml"))).1 =
      .ok ⟨Block.defaultMarker, some (.ofString "../m.txt")⟩ := by decide +kernel
  have hwith : Path.withLast (.ofString "l//.//c.toml") (.ofString "../m.txt") =
      .ofString "l//.//../m.txt" := by decide +kernel
  have hshown : (directory (.ofString "l//.//c.toml")).join (.ofString "../m.txt") =
      .ofString "l/../m.txt" := by decide +kernel
  have h := ((loadBlock_beside _ _ _ _ _ hload rfl (by decide)).2 (by decide)).2.2
    (.inl (by decide +kernel))
  rw [hwith] at h
  refine ⟨hload, h.1, ?_⟩
  rw [← hshown]
  exact h.2

/-- The configuration `d/c.toml` with 2043 names before the last one that lead nowhere. -/
def roundabout : Path :=
  ⟨utf8 "d/" ++ (List.replicate 2043 [0x2e, 0x2f]).flatten ++ utf8 "c.toml"⟩

/-- **A block file is read beside a configuration although the path that takes the place of the
configuration is too long to be looked up.** -/
theorem roundabout_read :
    (runIn (World.of sample .unlimited) (load Toml.plainWording roundabout)).1 =
        .ok ⟨Block.defaultMarker, some (.ofString "../m.txt")⟩ ∧
      sample.resolve (roundabout.withLast (.ofString "../m.txt")) =
        .error (.refused .nameTooLong) ∧
      ∃ b, (runIn (World.of sample .unlimited)
          (loadBlock Toml.plainWording (some roundabout))).1 = .ok b ∧
        b.text = "# STATIC_IMPORT_MARK\n" := by
  have hload : (runIn (World.of sample .unlimited) (load Toml.plainWording roundabout)).1 =
      .ok ⟨Block.defaultMarker, some (.ofString "../m.txt")⟩ := by decide +kernel
  have htext : sample.text ((directory roundabout).join (.ofString "../m.txt")) =
      .ok "# STATIC_IMPORT_MARK\n" := by decide +kernel
  have hmade : ∃ b, Block.make Block.defaultMarker "# STATIC_IMPORT_MARK\n" = .ok b :=
    Block.exists_make_eq_ok_iff.mpr ⟨by decide +kernel, by decide +kernel, by decide +kernel⟩
  refine ⟨hload, by decide +kernel, ?_⟩
  obtain ⟨b, hb⟩ := hmade
  refine ⟨b, ?_, (Block.make_eq_ok_iff.mp hb).2⟩
  have hanswer := loadBlock_of_blockFile hload rfl
  rw [hanswer]
  exact mapError_eq_ok_iff.mpr (fromFile_eq_ok_iff.mpr ⟨_, htext, Block.make_eq_ok_iff.mp hb⟩)

end Config
end StubInsertion
