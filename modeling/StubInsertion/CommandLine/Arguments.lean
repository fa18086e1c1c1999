import StubInsertion.Files.Path

/-!
# Arguments

The arguments of the command line are read from left to right; the first error or request for help
decides.

* **Requests.** A `Request` is what arguments ask for.
* **Reading.** `Request.parse` reads arguments, if they are valid.
-/

namespace StubInsertion

/-- What the command line asks for. -/
inductive Request
  | help
  | process (config : Option Path) (files : List Path)
  deriving DecidableEq, Repr

namespace Request

/-- Does the argument start with a hyphen and say more than that? -/
def isOption (arg : Bytes) : Bool := (utf8 "-").isPrefixOf arg && arg ≠ utf8 "-"

/-- A request to process files, of which there has to be one and each has to have a name. -/
def ofFiles (config : Option Path) (files : List Path) : Option Request :=
  if files.isEmpty || files.any (·.bytes.isEmpty) then none else some (.process config files)

/-- Read the arguments after those that gave `config` and `files`. -/
def parseFrom (config : Option Path) (files : List Path) : List Bytes → Option Request
  | [] => ofFiles config files
  | arg :: rest =>
    if arg = utf8 "--" then ofFiles config (files ++ rest.map Path.mk)
    else if arg = utf8 "--help" then some .help
    else if arg = utf8 "--config" then
      match rest with
      | [] => none
      | value :: rest =>
        if config.isSome || value.isEmpty || isOption value then none
        else parseFrom (some ⟨value⟩) files rest
    else match Bytes.after? (utf8 "--config=") arg with
      | some value =>
        if config.isSome || value.isEmpty then none else parseFrom (some ⟨value⟩) files rest
      | none =>
        if (utf8 "-h").isPrefixOf arg then some .help
        else if arg.isEmpty || isOption arg then none
        else parseFrom config (files ++ [⟨arg⟩]) rest

/-- What the arguments ask for; `none` if they are not valid. -/
def parse (args : List Bytes) : Option Request := parseFrom none [] args

end Request

end StubInsertion
