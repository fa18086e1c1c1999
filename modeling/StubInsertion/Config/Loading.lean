import StubInsertion.Calls
import StubInsertion.Config

/-!
# Loading a block

* **Configuration.** `Config.load` reads a configuration file.
* **Block.** `Config.block` makes the block that a configuration asks for; a relative `block_file`
  is looked up from the directory of the configuration.
* **Both.** `loadBlock` gives the block of a run, the built-in one if there is no configuration.
-/

namespace StubInsertion

variable {m : Type → Type} [Monad m]

/-- The block with this marker and text, or a failure. -/
def makeBlock (during : List Activity) (marker text : String) : ExceptT Failure m Block :=
  match Block.make marker text with
  | .ok block => return block
  | .error reason => throw ⟨during, .block reason⟩

variable [FileCalls m]

namespace Config

/-- Read a configuration file. -/
def load (words : Toml.Wording) (p : Path) : ExceptT Failure m Config := do
  let text ← readText (.read p) p
  match Config.parse words text with
  | .ok config => return config
  | .error fault => throw ⟨[.parse p], .configuration fault⟩

/-- The block that a configuration in the directory `base` asks for. -/
def block (config : Config) (base : Path) : ExceptT Failure m Block := do
  match config.blockFile with
  | none => makeBlock [] config.marker Block.defaultText
  | some file =>
    let p := base.join file
    let text ← readText (.readBlock p) p
    makeBlock [.checkBlock p] config.marker text

/-- The directory of a configuration file. -/
def directory (p : Path) : Path := p.parent?.getD (.ofString ".")

end Config

/-- The block of a run. -/
def loadBlock (words : Toml.Wording) : Option Path → ExceptT Failure m Block
  | none => return Block.default
  | some p => do
    let config ← Config.load words p
    ExceptT.adapt (Failure.within (.configureFrom p)) (config.block (Config.directory p))

end StubInsertion
