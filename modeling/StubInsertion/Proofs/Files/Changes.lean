import StubInsertion.Files.Operations
import StubInsertion.Proofs.Files.Ways

/-! # File systems, slot by slot

A file system is what its slots hold and what the nodes are (`ext_lookups`), so two sequences of
changes come to the same if they agree slot by slot and node by node.

* **Look-ups.** What `hold`, `vacate`, `add` and `move` do to slots and nodes.
* **Swaps.** A new node in a vacant slot can be taken away again (`vacate_add`).  Moving an old file
  aside, a new one into its place and removing the old one comes to putting the new one into the
  slot of the old one at once (`Swappable.vacate_swapped`).
* **Frame.** A new node in one slot changes no other slot (`owns_add`, `sameAt_add`).
* **Ways.** Changes behind dead ends leave the ways alone (`sameWays_add`, `SameWays.move`), so a new
  file there changes no other entry (`rewritten_add`). -/

namespace StubInsertion
namespace FileSystem

variable (fs : FileSystem)

/-- **A file system is what can be looked up in it.** -/
theorem ext_lookups {fs fs' : FileSystem} (hr : fs.root = fs'.root) (hh : fs.here = fs'.here)
    (hs : ∀ s, fs.holds s = fs'.holds s) (hn : ∀ i, fs.node? i = fs'.node? i) : fs = fs' := by
  cases fs with
  | mk nodes slots root here =>
      cases fs' with
      | mk nodes' slots' root' here' =>
          have h1 : nodes = nodes' := OrderedMap.ext hn
          have h2 : slots = slots' := OrderedMap.ext hs
          simp_all

theorem isHeld_congr {fs fs' : FileSystem} (hs : ∀ s, fs.holds s = fs'.holds s) (i : NodeId) :
    fs.isHeld i = fs'.isHeld i := by
  rw [Bool.eq_iff_iff, isHeld_iff, isHeld_iff]
  simp only [hs]

/-! ### Look-ups -/

@[simp] theorem root_release (i : NodeId) : (fs.release i).root = fs.root := by
  unfold release
  split <;> rfl

@[simp] theorem here_release (i : NodeId) : (fs.release i).here = fs.here := by
  unfold release
  split <;> rfl

@[simp] theorem root_hold (s : Slot) (i : NodeId) : (fs.hold s i).root = fs.root := by
  unfold hold
  split <;> simp

@[simp] theorem here_hold (s : Slot) (i : NodeId) : (fs.hold s i).here = fs.here := by
  unfold hold
  split <;> simp

@[simp] theorem root_vacate (s : Slot) : (fs.vacate s).root = fs.root := by
  unfold vacate
  split <;> simp

@[simp] theorem here_vacate (s : Slot) : (fs.vacate s).here = fs.here := by
  unfold vacate
  split <;> simp

/-- A node that has lost its slot is gone if no other slot holds it. -/
theorem node?_hold (s : Slot) (i k : NodeId) :
    (fs.hold s i).node? k =
      if fs.holds s = some k ∧ (fs.hold s i).isHeld k = false then none else fs.node? k := by
  cases h : fs.holds s with
  | none =>
      unfold hold
      simp only [h]
      rfl
  | some old =>
      have hheld : (fs.hold s i).isHeld k =
          isHeld { fs with slots := fs.slots.insert s i } k := by
        apply isHeld_congr
        intro s'
        unfold hold
        simp only [h, holds_release]
      rw [hheld]
      unfold hold
      simp only [h, node?_release]
      by_cases hk : k = old
      · subst hk
        simp [node?]
      · simp [hk, Ne.symm hk, node?]

theorem node?_vacate (s : Slot) (k : NodeId) :
    (fs.vacate s).node? k =
      if fs.holds s = some k ∧ (fs.vacate s).isHeld k = false then none else fs.node? k := by
  cases h : fs.holds s with
  | none =>
      unfold vacate
      simp only [h]
      rfl
  | some old =>
      have hheld : (fs.vacate s).isHeld k = isHeld { fs with slots := fs.slots.erase s } k := by
        apply isHeld_congr
        intro s'
        unfold vacate
        simp only [h, holds_release]
      rw [hheld]
      unfold vacate
      simp only [h, node?_release]
      by_cases hk : k = old
      · subst hk
        simp [node?]
      · simp [hk, Ne.symm hk, node?]

@[simp] theorem root_add (s : Slot) (node : Node) : (fs.add s node).root = fs.root := by
  simp [add, setNode]

@[simp] theorem here_add (s : Slot) (node : Node) : (fs.add s node).here = fs.here := by
  simp [add, setNode]

theorem holds_add (s s' : Slot) (node : Node) :
    (fs.add s node).holds s' = if s' = s then some fs.fresh else fs.holds s' := by
  rw [add, holds_hold, holds_setNode]

theorem node?_add (s : Slot) (node : Node) (k : NodeId) :
    (fs.add s node).node? k =
      if k = fs.fresh then some node
      else if fs.holds s = some k ∧ (fs.add s node).isHeld k = false then none
      else fs.node? k := by
  rw [add, node?_hold, holds_setNode, node?_setNode]
  by_cases hk : k = fs.fresh
  · have hno : ¬ (fs.holds s = some k ∧
        ((fs.setNode fs.fresh node).hold s fs.fresh).isHeld k = false) := by
      rintro ⟨hs, -⟩
      exact fs.holds_ne_fresh s (hk ▸ hs)
    rw [if_neg hno, if_pos hk, if_pos hk]
  · rw [if_neg hk, if_neg hk]

/-- A new node in a vacant slot changes no other node. -/
theorem node?_add_of_vacant {s : Slot} (h : fs.holds s = none) (node : Node) (k : NodeId) :
    (fs.add s node).node? k = if k = fs.fresh then some node else fs.node? k := by
  rw [node?_add, h]
  simp

theorem ne_fresh_of_holds {fs : FileSystem} {x : Slot} {k : NodeId} (h : fs.holds x = some k) :
    k ≠ fs.fresh := by
  rintro rfl
  exact fs.holds_ne_fresh x h

/-- What other slots hold is a directory or not as before. -/
theorem isDirectory_add {s x : Slot} {k : NodeId} (h : fs.holds s = none)
    (hk : fs.holds x = some k) (node : Node) :
    (fs.add s node).isDirectory k = fs.isDirectory k := by
  rw [FileSystem.isDirectory, FileSystem.isDirectory, node?_add_of_vacant _ h,
    if_neg (ne_fresh_of_holds hk)]

section move

variable {fs} {s t : Slot} {j : NodeId}

theorem move_of_not_directory (hj : fs.isDirectory j = false) (ht : fs.holds t = none) :
    fs.move j s t = { fs with slots := (fs.slots.erase s).insert t j } := by
  have hvacant : ({ fs with slots := fs.slots.erase s } : FileSystem).holds t = none := by
    show (fs.slots.erase s).get? t = none
    rw [OrderedMap.get?_erase]
    split
    · rfl
    · exact ht
  have hhold : ({ fs with slots := fs.slots.erase s } : FileSystem).hold t j =
      { fs with slots := (fs.slots.erase s).insert t j } := by
    unfold hold
    rw [hvacant]
  unfold move
  rw [hhold]
  have hnode : FileSystem.node? { fs with slots := (fs.slots.erase s).insert t j } j = fs.node? j := rfl
  dsimp only
  rw [hnode]
  split
  · rename_i mode above hdir
    simp [FileSystem.isDirectory, hdir, Node.isDirectory] at hj
  · rfl

theorem holds_move (hj : fs.isDirectory j = false) (ht : fs.holds t = none) (x : Slot) :
    (fs.move j s t).holds x = if x = t then some j else if x = s then none else fs.holds x := by
  rw [move_of_not_directory hj ht]
  show ((fs.slots.erase s).insert t j).get? x = _
  rw [OrderedMap.get?_insert, OrderedMap.get?_erase]
  rfl

theorem node?_move (hj : fs.isDirectory j = false) (ht : fs.holds t = none) (k : NodeId) :
    (fs.move j s t).node? k = fs.node? k := by
  rw [move_of_not_directory hj ht]
  rfl

theorem root_move (hj : fs.isDirectory j = false) (ht : fs.holds t = none) :
    (fs.move j s t).root = fs.root := by
  rw [move_of_not_directory hj ht]

theorem here_move (hj : fs.isDirectory j = false) (ht : fs.holds t = none) :
    (fs.move j s t).here = fs.here := by
  rw [move_of_not_directory hj ht]

end move

/-! ### Swaps -/

section swap

variable {fs} {s : Slot}

theorem setNode_add (h : fs.holds s = none) (a b : Node) :
    (fs.add s a).setNode fs.fresh b = fs.add s b := by
  apply ext_lookups
  · simp [setNode]
  · simp [setNode]
  · intro x
    rw [holds_setNode, holds_add, holds_add]
  · intro k
    rw [node?_setNode, node?_add_of_vacant _ h, node?_add_of_vacant _ h]
    split <;> rfl

/-- A new node is taken away again without a trace. -/
theorem vacate_add (h : fs.holds s = none) (node : Node) : (fs.add s node).vacate s = fs := by
  have hs (x : Slot) : ((fs.add s node).vacate s).holds x = fs.holds x := by
    rw [holds_vacate, holds_add]
    by_cases hx : x = s
    · rw [if_pos hx, hx, h]
    · rw [if_neg hx, if_neg hx]
  apply ext_lookups (by simp) (by simp) hs
  intro k
  rw [node?_vacate, holds_add, if_pos rfl, node?_add_of_vacant _ h, isHeld_congr hs]
  by_cases hk : k = fs.fresh
  · subst hk
    have : fs.isHeld fs.fresh = false := by
      cases hheld : fs.isHeld fs.fresh with
      | false => rfl
      | true =>
          obtain ⟨x, hx⟩ := (fs.isHeld_iff _).mp hheld
          exact absurd hx (fs.holds_ne_fresh x)
    rw [if_pos ⟨rfl, this⟩, fs.node?_fresh]
  · rw [if_neg, if_neg hk]
    exact fun hc => hk (Option.some.inj hc.1).symm

end swap

/-- A file in one slot, and two vacant slots beside it. -/
structure Swappable (fs : FileSystem) (s t u : Slot) (j : NodeId) : Prop where
  file : fs.isDirectory j = false
  holds : fs.holds s = some j
  staged : fs.holds t = none
  backup : fs.holds u = none
  ne : t ≠ u

/-- A new file is in the second slot, and the old one has been moved to the third. -/
def aside (fs : FileSystem) (s t u : Slot) (j : NodeId) (mode : Mode) (data : Bytes) : FileSystem :=
  (fs.add t (.file mode data)).move j s u

/-- The new file has been moved to the first slot. -/
def swapped (fs : FileSystem) (s t u : Slot) (j : NodeId) (mode : Mode) (data : Bytes) :
    FileSystem :=
  (fs.aside s t u j mode data).move fs.fresh t s

namespace Swappable

variable {fs} {s t u : Slot} {j : NodeId} (h : fs.Swappable s t u j) (mode : Mode) (data : Bytes)
include h

theorem ne_staged : s ≠ t := by
  rintro rfl
  have := h.holds
  rw [h.staged] at this
  cases this

theorem ne_backup : s ≠ u := by
  rintro rfl
  have := h.holds
  rw [h.backup] at this
  cases this

theorem isDirectory_old : (fs.add t (.file mode data)).isDirectory j = false := by
  rw [isDirectory_add _ h.staged h.holds, h.file]

theorem vacant_backup : (fs.add t (.file mode data)).holds u = none := by
  rw [holds_add, if_neg h.ne.symm, h.backup]

theorem holds_aside (x : Slot) :
    (fs.aside s t u j mode data).holds x =
      if x = u then some j else if x = s then none
      else if x = t then some fs.fresh else fs.holds x := by
  rw [aside, holds_move (h.isDirectory_old mode data) (h.vacant_backup mode data), holds_add]

theorem node?_aside (k : NodeId) :
    (fs.aside s t u j mode data).node? k =
      if k = fs.fresh then some (.file mode data) else fs.node? k := by
  rw [aside, node?_move (h.isDirectory_old mode data) (h.vacant_backup mode data),
    node?_add_of_vacant _ h.staged]

theorem vacant_aside : (fs.aside s t u j mode data).holds s = none := by
  rw [h.holds_aside, if_neg h.ne_backup, if_pos rfl]

theorem staged_aside : (fs.aside s t u j mode data).holds t = some fs.fresh := by
  rw [h.holds_aside, if_neg h.ne, if_neg h.ne_staged.symm, if_pos rfl]

theorem isDirectory_new : (fs.aside s t u j mode data).isDirectory fs.fresh = false := by
  rw [FileSystem.isDirectory, h.node?_aside, if_pos rfl]
  rfl

theorem holds_swapped (x : Slot) :
    (fs.swapped s t u j mode data).holds x =
      if x = s then some fs.fresh else if x = t then none
      else (fs.aside s t u j mode data).holds x := by
  rw [swapped, holds_move (h.isDirectory_new mode data) (h.vacant_aside mode data)]

theorem node?_swapped (k : NodeId) :
    (fs.swapped s t u j mode data).node? k =
      if k = fs.fresh then some (.file mode data) else fs.node? k := by
  rw [swapped, node?_move (h.isDirectory_new mode data) (h.vacant_aside mode data), h.node?_aside]

theorem backup_swapped : (fs.swapped s t u j mode data).holds u = some j := by
  rw [h.holds_swapped, if_neg h.ne_backup.symm, if_neg h.ne.symm, h.holds_aside, if_pos rfl]

theorem isDirectory_swapped : (fs.swapped s t u j mode data).isDirectory j = false := by
  rw [FileSystem.isDirectory, h.node?_swapped, if_neg (ne_fresh_of_holds h.holds)]
  exact h.file

theorem holds_vacate_swapped (x : Slot) :
    ((fs.swapped s t u j mode data).vacate u).holds x =
      (fs.add s (.file mode data)).holds x := by
  rw [holds_vacate, h.holds_swapped, h.holds_aside, holds_add]
  by_cases hxu : x = u
  · rw [if_pos hxu, hxu, if_neg h.ne_backup.symm, h.backup]
  · by_cases hxs : x = s
    · rw [if_neg hxu, if_pos hxs, if_pos hxs]
    · by_cases hxt : x = t
      · rw [if_neg hxu, if_neg hxs, if_pos hxt, if_neg hxs, hxt, h.staged]
      · rw [if_neg hxu, if_neg hxs, if_neg hxt, if_neg hxu, if_neg hxs, if_neg hxt, if_neg hxs]

/-- **Exchanging a file for a new one beside it puts the new one into its slot.** -/
theorem vacate_swapped :
    (fs.swapped s t u j mode data).vacate u = fs.add s (.file mode data) := by
  have h1 := h.isDirectory_old mode data
  have h2 := h.vacant_backup mode data
  have h3 := h.isDirectory_new mode data
  have h4 := h.vacant_aside mode data
  have hholds := h.holds_vacate_swapped mode data
  apply ext_lookups
  · rw [root_vacate, swapped, root_move h3 h4, aside, root_move h1 h2, root_add, root_add]
  · rw [here_vacate, swapped, here_move h3 h4, aside, here_move h1 h2, here_add, here_add]
  · exact hholds
  · -- the old file is gone exactly if it has no other name
    intro k
    rw [node?_vacate, h.backup_swapped, isHeld_congr hholds, h.node?_swapped, node?_add, h.holds]
    by_cases hk : k = fs.fresh
    · rw [if_pos hk, if_pos hk, if_neg]
      rintro ⟨hjk, -⟩
      exact ne_fresh_of_holds h.holds ((Option.some.inj hjk).trans hk)
    · rw [if_neg hk, if_neg hk]

end Swappable

/-! ### Frame -/

/-- The slot holds this node. -/
def Shows (fs : FileSystem) (s : Slot) (node : Node) : Prop :=
  ∃ i, fs.holds s = some i ∧ fs.node? i = some node

/-- The slot holds this node, and no other slot does. -/
def Owns (fs : FileSystem) (s : Slot) (node : Node) : Prop :=
  ∃ i, fs.holds s = some i ∧ fs.node? i = some node ∧ ∀ x, fs.holds x = some i → x = s

/-- The slot holds what it held before, and that has not changed. -/
structure SameAt (fs fs' : FileSystem) (s : Slot) : Prop where
  holds : fs'.holds s = fs.holds s
  node : ∀ i, fs.holds s = some i → fs'.node? i = fs.node? i

theorem SameAt.refl (s : Slot) : fs.SameAt fs s := ⟨rfl, fun _ _ => rfl⟩

theorem SameAt.trans {fs fs' fs'' : FileSystem} {s : Slot} (h : fs.SameAt fs' s)
    (h' : fs'.SameAt fs'' s) : fs.SameAt fs'' s :=
  ⟨h'.holds.trans h.holds,
    fun i hi => (h'.node i (h.holds.trans hi)).trans (h.node i hi)⟩

theorem owns_add (s : Slot) (node : Node) : (fs.add s node).Owns s node := by
  refine ⟨fs.fresh, by rw [holds_add, if_pos rfl], by rw [node?_add, if_pos rfl], ?_⟩
  intro x hx
  rw [holds_add] at hx
  by_cases hxs : x = s
  · exact hxs
  · rw [if_neg hxs] at hx
    exact absurd hx (fs.holds_ne_fresh x)

theorem sameAt_add {s x : Slot} (hxs : x ≠ s) (node : Node) : fs.SameAt (fs.add s node) x := by
  have hx : (fs.add s node).holds x = fs.holds x := by
    rw [holds_add, if_neg hxs]
  refine ⟨hx, fun k hk => ?_⟩
  -- the node is not lost, it is still in this slot
  have hheld := (isHeld_iff _ k).mpr ⟨x, hx.trans hk⟩
  rw [node?_add, if_neg (ne_fresh_of_holds hk), if_neg]
  rintro ⟨-, hlost⟩
  rw [hheld] at hlost
  cases hlost

theorem Owns.shows {fs : FileSystem} {s : Slot} {node : Node} (h : fs.Owns s node) :
    fs.Shows s node := by
  obtain ⟨i, hi, hnode, -⟩ := h
  exact ⟨i, hi, hnode⟩

theorem Shows.unique {fs : FileSystem} {s : Slot} {a b : Node} (ha : fs.Shows s a)
    (hb : fs.Shows s b) : a = b := by
  obtain ⟨i, hi, hai⟩ := ha
  obtain ⟨j, hj, hbj⟩ := hb
  cases hi.symm.trans hj
  exact Option.some.inj (hai.symm.trans hbj)

/-! ### Ways -/

section ways

variable {fs} {fs' : FileSystem} {s t : Slot} {j : NodeId}

theorem ne_fresh_of_directory {i : NodeId} (h : fs.isDirectory i = true) : i ≠ fs.fresh := by
  rintro rfl
  simp [FileSystem.isDirectory, fs.node?_fresh] at h

/-- A new file changes no way if none led through its slot. -/
theorem sameWays_add (hd : fs.DeadEnd s) (mode : Mode) (data : Bytes) :
    SameWays fs (fs.add s (.file mode data)) where
  root := fs.root_add s _
  here := fs.here_add s _
  directory i hi := by
    rw [node?_add, if_neg (ne_fresh_of_directory hi), if_neg]
    rintro ⟨hs, -⟩
    rw [(hd i hs).1] at hi
    cases hi
  only i hi := by
    rw [FileSystem.isDirectory, node?_add] at hi
    split at hi
    · cases hi
    · split at hi
      · simp at hi
      · exact hi
  slot x j hx hlive := by
    have hxs : x ≠ s := by
      rintro rfl
      exact hlive hd
    obtain ⟨hholds, hnode⟩ := fs.sameAt_add hxs (.file mode data)
    exact ⟨hholds.trans hx, hnode j hx⟩

/-- Moving a file from one dead end to another changes no way. -/
theorem SameWays.move (hw : SameWays fs fs') (hs : fs.DeadEnd s) (ht : fs.DeadEnd t)
    (hj : fs'.isDirectory j = false) (hv : fs'.holds t = none) : SameWays fs (fs'.move j s t) where
  root := (root_move hj hv).trans hw.root
  here := (here_move hj hv).trans hw.here
  directory i hi := (node?_move hj hv i).trans (hw.directory i hi)
  only i hi := by
    rw [FileSystem.isDirectory, node?_move hj hv] at hi
    exact hw.only i hi
  slot x k hx hlive := by
    have hxs : x ≠ s := by
      rintro rfl
      exact hlive hs
    have hxt : x ≠ t := by
      rintro rfl
      exact hlive ht
    obtain ⟨h1, h2⟩ := hw.slot x k hx hlive
    rw [holds_move hj hv, if_neg hxt, if_neg hxs, node?_move hj hv]
    exact ⟨h1, h2⟩

/-- One slot holds a node of its own, all others what they held before, and the directories are the
same. -/
structure Rewritten (fs fs' : FileSystem) (s : Slot) (node : Node) : Prop where
  root : fs'.root = fs.root
  here : fs'.here = fs.here
  directory : ∀ i, fs.isDirectory i = true → fs'.node? i = fs.node? i
  entry : fs'.Owns s node
  others : ∀ x, x ≠ s → fs.SameAt fs' x

/-- A new file in a slot changes no other entry. -/
theorem rewritten_add (hd : fs.DeadEnd s) (mode : Mode) (data : Bytes) :
    fs.Rewritten (fs.add s (.file mode data)) s (.file mode data) where
  root := fs.root_add s _
  here := fs.here_add s _
  directory := (sameWays_add hd mode data).directory
  entry := fs.owns_add s _
  others _ hx := fs.sameAt_add hx _

end ways

end FileSystem
end StubInsertion
