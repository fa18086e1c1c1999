/-!
# Help

The text that explains the command line.
-/

namespace StubInsertion

/-- The lines of the help text. -/
def helpLines : List String := [
  "Add the dead code web2py controllers and models need to keep static analyzers",
  "such as Pydev from reporting the names web2py imports implicitly.",
  "",
  "The block is inserted right before the first statement of each FILE, after any",
  "leading comments, blank lines and \x60from __future__\x60 imports, or at the end of",
  "a file that has no statement. A file already containing the mark",
  "STATIC_IMPORT_MARK is left untouched, so running the tool again is safe.",
  "",
  "Usage: insert-imports [OPTIONS] <FILE>...",
  "",
  "Arguments:",
  "  <FILE>...",
  "          Source files to process, in order",
  "",
  "Options:",
  "  -h, --help",
  "          Display this help message",
  "",
  "      --config <PATH>",
  "          TOML file overriding the marker or the inserted block",
  "",
  "TIPS:",
  "    Let the shell expand the file list. From the web2py applications",
  "    directory:",
  "",
  "        insert-imports */controllers/*.py",
  "        insert-imports */models/*.py",
  "",
  "    processes all controllers and models of every application."]

/-- The help text. -/
def helpText : String := String.join (helpLines.map (· ++ "\n"))

end StubInsertion
