import StubInsertion.Files.FileSystem

/-!
# Listings

`listing` is everything below the working directory, links not followed, in ascending order of the
relative paths' bytes.
-/

namespace StubInsertion.FileSystem

variable (fs : FileSystem)

/-- Everything below a directory, at most `depth` levels down; `lead` is put before each name. -/
def below : (depth : Nat) → (dir : NodeId) → (lead : Bytes) → List (Path × Node)
  | 0, _, _ => []
  | depth + 1, dir, lead => (fs.namesIn dir).flatMap fun entry =>
    let path := lead ++ entry.1
    match fs.node? entry.2 with
    | none => []
    | some node =>
      (⟨path⟩, node) ::
        if node.isDirectory then below depth entry.2 (path ++ [Path.slash]) else []

/-- Everything below the working directory. -/
def listing : List (Path × Node) :=
  (fs.below fs.nodes.bindings.length fs.here []).mergeSort fun a b =>
    (compare a.1.bytes b.1.bytes).isLE

end StubInsertion.FileSystem
