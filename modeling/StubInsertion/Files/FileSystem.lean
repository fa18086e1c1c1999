import StubInsertion.Files.Path
import StubInsertion.OrderedMap

/-!
# File systems

A file system is a value: a table of nodes and a table of names. A name in a directory is a slot
that holds a node, so a node held by two slots is a file with two hard links.

* **Nodes.** `Node` is a regular file, a directory, a symbolic link or a device.
* **Slots.** `Slot` is a name in a directory; `holds` says which node it holds.
* **Change.** `hold` fills a slot and `vacate` empties one; a node that no slot holds any more is
  gone. `add` puts a new node into a slot, under a number that was in use nowhere (`fresh`).
-/

namespace StubInsertion

/-- The number of a node. -/
abbrev NodeId := Nat

/-- The permission bits of a node, at most twelve. -/
abbrev Mode := Nat

/-- The devices that paths in reach can name. -/
inductive Device
  /-- empty to a reader, bottomless to a writer -/
  | null
  /-- endless to a reader, who gives up, and without space to a writer -/
  | full
  deriving DecidableEq, Repr

/-- What a slot can hold. A directory knows the directory above it. -/
inductive Node
  | file (mode : Mode) (data : Bytes)
  | directory (mode : Mode) (above : NodeId)
  | symlink (target : Path)
  | device (mode : Mode) (kind : Device)
  deriving DecidableEq, Repr

namespace Node

/-- The permission bits; a symbolic link allows everything. -/
def mode : Node → Mode
  | .file m _ => m
  | .directory m _ => m
  | .symlink _ => 0o777
  | .device m _ => m

/-- The node with other permission bits; a symbolic link keeps its own. -/
def withMode (mode : Mode) : Node → Node
  | .file _ data => .file mode data
  | .directory _ above => .directory mode above
  | .symlink target => .symlink target
  | .device _ kind => .device mode kind

/-- Is the node a directory? -/
def isDirectory : Node → Bool
  | .directory .. => true
  | _ => false

end Node

/-- A name in a directory. -/
structure Slot where
  dir : NodeId
  name : Name
  deriving DecidableEq, Repr

namespace Slot

/-- Slots in order: by directory, then by name. -/
instance : Ord Slot := ⟨compareLex (compareOn dir) (compareOn name)⟩

instance : Std.TransOrd Slot :=
  inferInstanceAs (Std.TransCmp (compareLex (compareOn dir) (compareOn name)))

instance : Std.LawfulEqOrd Slot where
  eq_of_compare {a b} h := by
    cases a
    cases b
    have h : (compare _ _).then (compare _ _) = .eq := h
    rw [Ordering.then_eq_eq] at h
    simp_all

end Slot

/-- The nodes, the slots that hold them, the root, and where relative paths start. -/
structure FileSystem where
  nodes : OrderedMap NodeId Node
  slots : OrderedMap Slot NodeId
  root : NodeId
  here : NodeId
  deriving DecidableEq

namespace FileSystem

variable (fs : FileSystem)

/-- The node with a number. -/
def node? (i : NodeId) : Option Node := fs.nodes.get? i

/-- The node that a slot holds. -/
def holds (s : Slot) : Option NodeId := fs.slots.get? s

/-- Is this the number of a directory? -/
def isDirectory (i : NodeId) : Bool := (fs.node? i).any Node.isDirectory

/-- The directory above a directory; what lies in no directory is above itself, as the root is. -/
def above (i : NodeId) : NodeId :=
  match fs.node? i with
  | some (.directory _ above) => if fs.isDirectory above then above else i
  | _ => i

/-- A number above every number in use. -/
def fresh : NodeId :=
  1 + max ((fs.nodes.bindings.map Prod.fst).foldr max 0)
    ((fs.slots.bindings.map Prod.snd).foldr max 0)

/-- Some slot holds the node. -/
def isHeld (i : NodeId) : Bool := fs.slots.bindings.any fun b => b.2 = i

/-- The names in a directory, in order. -/
def namesIn (dir : NodeId) : List (Name × NodeId) :=
  fs.slots.bindings.filterMap fun b => if b.1.dir = dir then some (b.1.name, b.2) else none

/-- The file system with other contents or permissions of one node. -/
def setNode (i : NodeId) (node : Node) : FileSystem := { fs with nodes := fs.nodes.insert i node }

/-- Forget a node that is held nowhere. -/
def release (i : NodeId) : FileSystem :=
  if fs.isHeld i then fs else { fs with nodes := fs.nodes.erase i }

/-- Empty a slot. -/
def vacate (s : Slot) : FileSystem :=
  let rest := { fs with slots := fs.slots.erase s }
  match fs.holds s with
  | some i => rest.release i
  | none => rest

/-- Let a slot hold a node, in the place of the one it held. -/
def hold (s : Slot) (i : NodeId) : FileSystem :=
  let rest := { fs with slots := fs.slots.insert s i }
  match fs.holds s with
  | some old => rest.release old
  | none => rest

/-- Put a new node into a slot. -/
def add (s : Slot) (node : Node) : FileSystem := (fs.setNode fs.fresh node).hold s fs.fresh

/-! ### What a change does to nodes and slots -/

theorem le_foldr_max {l : List Nat} {n : Nat} (h : n ∈ l) : n ≤ l.foldr max 0 := by
  induction l with
  | nil => simp at h
  | cons a l ih =>
    rcases List.mem_cons.1 h with rfl | h
    · exact Nat.le_max_left ..
    · exact Nat.le_trans (ih h) (Nat.le_max_right ..)

theorem max_lt_fresh : max ((fs.nodes.bindings.map Prod.fst).foldr max 0)
    ((fs.slots.bindings.map Prod.snd).foldr max 0) < fs.fresh :=
  Nat.lt_add_of_pos_left Nat.one_pos

/-- A fresh number has no node. -/
theorem node?_fresh : fs.node? fs.fresh = none := by
  cases h : fs.node? fs.fresh with
  | none => rfl
  | some node =>
    have mem := OrderedMap.get?_eq_some_iff.1 h
    have le := le_foldr_max (List.mem_map_of_mem (f := Prod.fst) mem)
    exact absurd (Nat.le_trans le (Nat.le_max_left ..)) (Nat.not_le.2 fs.max_lt_fresh)

/-- No slot holds a fresh number. -/
theorem holds_ne_fresh (s : Slot) : fs.holds s ≠ some fs.fresh := by
  intro h
  have mem := OrderedMap.get?_eq_some_iff.1 h
  have le := le_foldr_max (List.mem_map_of_mem (f := Prod.snd) mem)
  exact absurd (Nat.le_trans le (Nat.le_max_right ..)) (Nat.not_le.2 fs.max_lt_fresh)

theorem isHeld_iff (i : NodeId) : fs.isHeld i = true ↔ ∃ s, fs.holds s = some i := by
  simp only [isHeld, List.any_eq_true, decide_eq_true_eq, holds, OrderedMap.get?_eq_some_iff]
  constructor
  · rintro ⟨⟨s, j⟩, mem, rfl⟩
    exact ⟨s, mem⟩
  · rintro ⟨s, mem⟩
    exact ⟨(s, i), mem, rfl⟩

@[simp] theorem holds_setNode (i : NodeId) (node : Node) (s : Slot) :
    (fs.setNode i node).holds s = fs.holds s := rfl

theorem node?_setNode (i j : NodeId) (node : Node) :
    (fs.setNode i node).node? j = if j = i then some node else fs.node? j :=
  OrderedMap.get?_insert ..

@[simp] theorem holds_release (i : NodeId) (s : Slot) : (fs.release i).holds s = fs.holds s := by
  unfold release
  split <;> rfl

/-- Only a node that no slot holds is forgotten. -/
theorem node?_release (i j : NodeId) :
    (fs.release i).node? j = if j = i ∧ fs.isHeld i = false then none else fs.node? j := by
  unfold release
  split
  · simp_all
  · simp_all [node?, OrderedMap.get?_erase]

theorem holds_vacate (s s' : Slot) :
    (fs.vacate s).holds s' = if s' = s then none else fs.holds s' := by
  unfold vacate
  split
  · rw [holds_release]
    exact OrderedMap.get?_erase ..
  · exact OrderedMap.get?_erase ..

theorem holds_hold (s s' : Slot) (i : NodeId) :
    (fs.hold s i).holds s' = if s' = s then some i else fs.holds s' := by
  unfold hold
  split
  · rw [holds_release]
    exact OrderedMap.get?_insert ..
  · exact OrderedMap.get?_insert ..

/-- A file system with the two devices under `/dev` and an empty directory to work in. -/
def initial : FileSystem where
  nodes := ⟨[(0, .directory 0o755 0), (1, .directory 0o755 0), (2, .device 0o666 .null),
    (3, .device 0o666 .full), (4, .directory 0o755 0)], by decide⟩
  slots := ⟨[(⟨0, utf8 "dev"⟩, 1), (⟨0, utf8 "work"⟩, 4), (⟨1, utf8 "full"⟩, 3),
    (⟨1, utf8 "null"⟩, 2)], by decide⟩
  root := 0
  here := 4

end FileSystem

end StubInsertion
