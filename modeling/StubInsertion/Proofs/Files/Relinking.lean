import StubInsertion.Proofs.Files.Alike
import StubInsertion.Proofs.Files.Changes

/-! # Names that change hands

Calls that act on names move nodes from slot to slot and leave the nodes as they are.  Here is what
becomes of the ways then, whatever the slots held before.

* **Slots.** `Relinked fs fs'` says that the slots hold other nodes but the nodes are the same;
  `Moved` is what a renaming does and `relinked_vacate` what a removal does.
* **Ways back.** `NoNewWays fs x` says that `x` has no way to a directory that `fs` has not
  (`Leads.back`).  It holds as long as nodes that lead nowhere (`Inert`) change hands inside a
  directory (`NoNewWays.relinked`).
* **Lookups.** A path therefore locates its old slot or is lost, with its siblings
  (`Locates.or_lost`). -/

namespace StubInsertion
namespace FileSystem

variable {fs fs' x : FileSystem} {p q : Path} {s t : Slot} {i j k : NodeId}

/-! ### Slots -/

/-- The same nodes, perhaps under other names; what no name holds may be gone. -/
structure Relinked (fs fs' : FileSystem) : Prop where
  root : fs'.root = fs.root
  here : fs'.here = fs.here
  node : ∀ s j, fs'.holds s = some j → fs'.node? j = fs.node? j
  directory : ∀ i, fs.isDirectory i = true → fs'.node? i = fs.node? i
  only : ∀ i, fs'.isDirectory i = true → fs.isDirectory i = true

/-- The node `j` has changed from the slot `s` to the slot `t`, or has both and keeps them. -/
structure Moved (fs fs' : FileSystem) (s t : Slot) (j : NodeId) : Prop extends Relinked fs fs' where
  target : fs'.holds t = some j
  source : fs'.holds s = none ∨ fs'.holds s = some j ∧ fs.holds t = some j
  others : ∀ y, y ≠ s → y ≠ t → fs'.holds y = fs.holds y
  free : ∀ k, fs.holds t = some k → fs.isDirectory k = false

theorem Relinked.isDirectory (h : Relinked fs fs') : fs'.isDirectory i = fs.isDirectory i := by
  rw [Bool.eq_iff_iff]
  refine ⟨h.only i, fun hi => ?_⟩
  rw [FileSystem.isDirectory, h.directory i hi]
  exact hi

/-- A change of slots that loses no directory leaves the nodes alone. -/
theorem relinked_of_node (hroot : fs'.root = fs.root) (hhere : fs'.here = fs.here)
    (hnode : ∀ k, fs'.node? k = fs.node? k ∨
      fs'.node? k = none ∧ fs.isDirectory k = false ∧ ∀ s, fs'.holds s ≠ some k) :
    Relinked fs fs' where
  root := hroot
  here := hhere
  node s k hk := (hnode k).resolve_right fun h => h.2.2 s hk
  directory k hk := (hnode k).resolve_right fun h => by simp [h.2.1] at hk
  only k hk := by
    rcases hnode k with h | h
    · rwa [FileSystem.isDirectory, h] at hk
    · rw [FileSystem.isDirectory, h.1] at hk
      cases hk

theorem not_holds_of_isHeld (h : fs.isHeld k = false) (s : Slot) : fs.holds s ≠ some k := by
  intro hs
  rw [(fs.isHeld_iff k).mpr ⟨s, hs⟩] at h
  cases h

theorem holds_of_vacate (h : (fs.vacate s).holds t = some j) : fs.holds t = some j := by
  rw [holds_vacate] at h
  split at h
  · cases h
  · exact h

theorem relinked_vacate (h : ∀ k, fs.holds s = some k → fs.isDirectory k = false) :
    Relinked fs (fs.vacate s) := by
  refine relinked_of_node (fs.root_vacate s) (fs.here_vacate s) fun k => ?_
  rw [node?_vacate]
  split
  · rename_i hlost
    exact .inr ⟨rfl, h k hlost.1, not_holds_of_isHeld hlost.2⟩
  · exact .inl rfl

/-- A file takes the place of another one, or a vacant place. -/
theorem moved_move (hj : fs.isDirectory j = false)
    (ht : ∀ k, fs.holds t = some k → fs.isDirectory k = false) (hst : s ≠ t) :
    Moved fs (fs.move j s t) s t j := by
  let emptied : FileSystem := { fs with slots := fs.slots.erase s }
  have hemptied (y : Slot) : emptied.holds y = if y = s then none else fs.holds y :=
    OrderedMap.get?_erase ..
  have hold : emptied.holds t = fs.holds t := by
    rw [hemptied, if_neg hst.symm]
  have hnode (k : NodeId) : (emptied.hold t j).node? k = fs.node? k ∨
      (emptied.hold t j).node? k = none ∧ fs.isDirectory k = false ∧
        ∀ y, (emptied.hold t j).holds y ≠ some k := by
    rw [node?_hold]
    split
    · rename_i hlost
      exact .inr ⟨rfl, ht k (hold ▸ hlost.1), not_holds_of_isHeld hlost.2⟩
    · exact .inl rfl
  have hrel : Relinked fs (emptied.hold t j) :=
    relinked_of_node (root_hold ..) (here_hold ..) hnode
  have hmove : fs.move j s t = emptied.hold t j := by
    unfold move
    dsimp only
    split
    · rename_i mode above hdir
      have : (emptied.hold t j).isDirectory j = true := by
        rw [FileSystem.isDirectory, hdir]
        rfl
      rw [hrel.isDirectory, hj] at this
      cases this
    · rfl
  rw [hmove]
  refine { hrel with target := ?_, source := .inl ?_, others := ?_, free := ht }
  · rw [holds_hold, if_pos rfl]
  · rw [holds_hold, if_neg hst, hemptied, if_pos rfl]
  · intro y hs ht
    rw [holds_hold, if_neg ht, hemptied, if_neg hs]

/-- What a slot holds then it has held before, unless it is the new slot. -/
theorem Moved.held (hm : Moved fs fs' s t j) (hs : fs.holds s = some j) {y : Slot} {k : NodeId}
    (h : fs'.holds y = some k) : y = t ∧ k = j ∨ fs.holds y = some k := by
  by_cases hyt : y = t
  · subst hyt
    cases hm.target.symm.trans h
    exact .inl ⟨rfl, rfl⟩
  · by_cases hys : y = s
    · subst hys
      rcases hm.source with hnone | hsome
      · rw [hnone] at h
        cases h
      · cases hsome.1.symm.trans h
        exact .inr hs
    · rw [hm.others y hys hyt] at h
      exact .inr h

/-- Two names of one file are left as they are. -/
theorem moved_self (hs : fs.holds s = some j) (ht : fs.holds t = some j)
    (hj : fs.isDirectory j = false) : Moved fs fs s t j where
  root := rfl
  here := rfl
  node _ _ _ := rfl
  directory _ _ := rfl
  only _ h := h
  target := ht
  source := .inr ⟨hs, ht⟩
  others _ _ _ := rfl
  free k hk := by
    cases ht.symm.trans hk
    exact hj

/-! ### Ways back -/

/-- Neither a directory nor a link that leads from this directory to one. -/
def Inert (fs : FileSystem) (dir : NodeId) (node : Option Node) : Prop :=
  node.any Node.isDirectory = false ∧ ∀ target, node = some (.symlink target) →
    ∀ n m d, ¬ fs.Leads n (fs.base target dir) target.names true m d

theorem DeadEnd.inert (h : fs.DeadEnd s) (hj : fs.holds s = some j) : fs.Inert s.dir (fs.node? j) :=
  h j hj

/-- Every way to a directory in the second file system is one in the first. -/
structure NoNewWays (fs x : FileSystem) : Prop where
  root : x.root = fs.root
  here : x.here = fs.here
  directory : ∀ i, x.isDirectory i = true → fs.node? i = x.node? i
  only : ∀ i, fs.isDirectory i = true → x.isDirectory i = true
  slot : ∀ s j, x.holds s = some j →
    fs.holds s = some j ∧ fs.node? j = x.node? j ∨ fs.Inert s.dir (x.node? j)

namespace NoNewWays

theorem isDirectory (hw : NoNewWays fs x) : x.isDirectory i = fs.isDirectory i := by
  rw [Bool.eq_iff_iff]
  refine ⟨fun hi => ?_, hw.only i⟩
  rw [FileSystem.isDirectory, hw.directory i hi]
  exact hi

theorem above (hw : NoNewWays fs x) (h : x.isDirectory i = true) : fs.above i = x.above i := by
  unfold FileSystem.above
  rw [hw.directory i h]
  simp only [hw.isDirectory]

theorem base (hw : NoNewWays fs x) (target : Path) (dir : NodeId) :
    x.base target dir = fs.base target dir := by
  rw [FileSystem.base, FileSystem.base, hw.root]

theorem start (hw : NoNewWays fs x) (p : Path) : x.start p = fs.start p := by
  rw [FileSystem.start, FileSystem.start, hw.root, hw.here]

end NoNewWays

/-- **A way to a directory was there before.**  The induction is on the way; a link that has changed
hands cannot be on it, because the rest of the way would lead from its target to a directory. -/
theorem Leads.back {n m : Nat} {dir d : NodeId} {names : List Name} {slash : Bool}
    (h : x.Leads n dir names slash m d) (hs : slash = true) (hw : NoNewWays fs x) :
    fs.Leads n dir names slash m d := by
  induction h with
  | here hd => exact .here fun h => hw.isDirectory ▸ hd h
  | dot hd _ ih => exact .dot (hw.isDirectory ▸ hd) (ih hs)
  | dotDot hd _ ih =>
      refine .dotDot (hw.isDirectory ▸ hd) ?_
      rw [hw.above hd]
      exact ih hs
  | enter hd hn hh hj h ih =>
      obtain ⟨hh', hj'⟩ | hinert := hw.slot _ _ hh
      · exact .enter (hw.isDirectory ▸ hd) hn hh' (fun target ht => hj target (hj' ▸ ht)) (ih hs)
      · have hdir := h.start_isDirectory hs
        rw [FileSystem.isDirectory, hinert.1] at hdir
        cases hdir
  | @link n dir name rest slash m i j target hd hn hh hj _ ih =>
      have hrest := ih (by rw [hs, asks_true])
      rw [hw.base] at hrest
      obtain ⟨hh', hj'⟩ | hinert := hw.slot _ _ hh
      · exact .link (hw.isDirectory ▸ hd) hn hh' (hj' ▸ hj) hrest
      · rw [hs, asks_true] at hrest
        by_cases hr : rest = []
        · subst hr
          rw [List.append_nil] at hrest
          exact absurd hrest (hinert.2 target hj _ _ _)
        · obtain ⟨l, e, hl, -⟩ := hrest.split rfl hr
          exact absurd hl (hinert.2 target hj _ _ _)

/-- Behind a slot with an inert node there is no directory. -/
theorem NoNewWays.deadEnd (hw : NoNewWays fs x)
    (h : ∀ j, x.holds s = some j → fs.Inert s.dir (x.node? j)) : x.DeadEnd s := by
  intro j hj
  refine ⟨(h j hj).1, fun target ht n m d hl => ?_⟩
  have := hl.back rfl hw
  rw [hw.base] at this
  exact (h j hj).2 target ht n m d this

/-- Inert nodes may change hands. -/
theorem NoNewWays.relinked (hw : NoNewWays fs x) (hr : Relinked x fs')
    (hs : ∀ s j, fs'.holds s = some j → x.holds s = some j ∨ fs.Inert s.dir (x.node? j)) :
    NoNewWays fs fs' where
  root := hr.root.trans hw.root
  here := hr.here.trans hw.here
  directory i hi := by
    rw [hr.directory i (hr.only i hi)]
    exact hw.directory i (hr.only i hi)
  only i hi := by
    rw [hr.isDirectory]
    exact hw.only i hi
  slot s j hj := by
    rw [hr.node s j hj]
    rcases hs s j hj with h | h
    · exact hw.slot s j h
    · exact .inr h

theorem NoNewWays.moved (hw : NoNewWays fs x) (hm : Moved x fs' s t j)
    (hj : fs.Inert t.dir (x.node? j)) (hs : x.holds s = some j) : NoNewWays fs fs' := by
  refine hw.relinked hm.toRelinked fun y k hk => ?_
  obtain ⟨rfl, rfl⟩ | hold := hm.held hs hk
  · exact .inr hj
  · exact .inl hold

/-! ### Ways on -/

/-- Ways to directories remain if the slots on them keep what they hold. -/
theorem SameWays.relinked (hw : SameWays fs x) (hr : Relinked x fs')
    (hs : ∀ s j, x.holds s = some j → ¬ fs.DeadEnd s → fs'.holds s = some j) : SameWays fs fs' where
  root := hr.root.trans hw.root
  here := hr.here.trans hw.here
  directory i hi := by
    rw [hr.directory i (hw.isDirectory hi), hw.directory i hi]
  only i hi := hw.only i (hr.only i hi)
  slot s j hj hlive := by
    obtain ⟨h1, h2⟩ := hw.slot s j hj hlive
    have h3 := hs s j h1 hlive
    exact ⟨h3, (hr.node s j h3).trans h2⟩

theorem SameWays.moved (hw : SameWays fs x) (hm : Moved x fs' s t j) (hs : fs.DeadEnd s)
    (ht : fs.DeadEnd t) : SameWays fs fs' := by
  refine hw.relinked hm.toRelinked fun y k hk hlive => ?_
  rw [hm.others y (by rintro rfl; exact hlive hs) (by rintro rfl; exact hlive ht)]
  exact hk

theorem SameWays.vacate (hw : SameWays fs x) (hs : fs.DeadEnd s)
    (hj : ∀ k, x.holds s = some k → x.isDirectory k = false) : SameWays fs (x.vacate s) := by
  refine hw.relinked (relinked_vacate hj) fun y k hk hlive => ?_
  rw [holds_vacate, if_neg (by rintro rfl; exact hlive hs)]
  exact hk

/-- A slot without a directory may be emptied, ways that did not go through it remain. -/
theorem sameWays_of_vacate (h : ∀ k, fs.holds s = some k → fs.isDirectory k = false) :
    SameWays (fs.vacate s) fs := by
  have hr := relinked_vacate h
  refine ⟨hr.root.symm, hr.here.symm, fun i hi => ?_, fun i hi => ?_, fun t j hj _ => ?_⟩
  · exact (hr.directory i (hr.only i hi)).symm
  · rwa [hr.isDirectory]
  · exact ⟨holds_of_vacate hj, (hr.node t j hj).symm⟩

/-- What leads to a directory does so in a file system with the same ways. -/
theorem SameWays.deadEnd (h : SameWays fs x) (hd : x.DeadEnd s) (hj : fs.holds s = some j)
    (hj' : x.holds s = some j) (hnode : x.node? j = fs.node? j) : fs.DeadEnd s := by
  obtain ⟨hdir, hlink⟩ := hd j hj'
  intro i hi
  cases hj.symm.trans hi
  refine ⟨?_, fun target ht n m d hl => ?_⟩
  · cases hi' : fs.isDirectory j with
    | false => rfl
    | true => exact absurd (h.isDirectory hi') (by simp [hdir])
  · apply hlink target (hnode.trans ht) n m d
    rw [h.base]
    exact hl.frame rfl h

theorem SameWays.trans (h : SameWays fs x) (h' : SameWays x fs') : SameWays fs fs' where
  root := h'.root.trans h.root
  here := h'.here.trans h.here
  directory i hi := by rw [h'.directory i (h.isDirectory hi), h.directory i hi]
  only i hi := h.only i (h'.only i hi)
  slot s j hj hlive := by
    obtain ⟨hj', hnode⟩ := h.slot s j hj hlive
    have hlive' : ¬ x.DeadEnd s := fun hd => hlive (h.deadEnd hd hj hj' hnode)
    obtain ⟨hj'', hnode'⟩ := h'.slot s j hj' hlive'
    exact ⟨hj'', hnode'.trans hnode⟩

/-- Behind a slot there is no directory once another one has been emptied, if there was none. -/
theorem DeadEnd.vacate (hd : fs.DeadEnd s)
    (h : ∀ k, fs.holds t = some k → fs.isDirectory k = false) : (fs.vacate t).DeadEnd s := by
  have hr := relinked_vacate h
  have hw : NoNewWays fs (fs.vacate t) :=
    ⟨hr.root, hr.here, fun i hi => (hr.directory i (hr.only i hi)).symm,
      fun i hi => hr.isDirectory ▸ hi, fun y j hj => .inl ⟨holds_of_vacate hj, (hr.node y j hj).symm⟩⟩
  refine hw.deadEnd fun j hj => ?_
  rw [hr.node s j hj]
  exact hd.inert (holds_of_vacate hj)

theorem sameWays_refl (fs : FileSystem) : SameWays fs fs where
  root := rfl
  here := rfl
  directory _ _ := rfl
  only _ h := h
  slot _ _ h _ := ⟨h, rfl⟩

/-! ### Lookups -/

/-- No directory is found on the way to the last name of the path. -/
def Lost (fs : FileSystem) (p : Path) : Prop :=
  ∀ d, fs.walk .visit maxLinks (fs.start p) p.names.dropLast true ≠ .ok (.node d)

/-- A path locates one slot. -/
theorem Locates.unique (h : fs.Locates p s) (h' : fs.Locates p t) : s = t := by
  obtain ⟨init, m, hn, hm⟩ := h.way
  obtain ⟨init', m', hn', hm'⟩ := h'.way
  obtain ⟨rfl, hname⟩ := List.append_inj' (hn.symm.trans hn') rfl
  cases s
  cases t
  simp only [List.cons.injEq, and_true] at hname
  simp only [Slot.mk.injEq]
  exact ⟨hm.agree hm', hname⟩

/-- **A path that located a slot locates it still, or is lost.** -/
theorem Locates.or_lost (hl : fs.Locates p s) (hw : NoNewWays fs x) : x.Locates p s ∨ x.Lost p := by
  obtain ⟨init, m, hn, hm⟩ := hl.way
  by_cases hlost : x.Lost p
  · exact .inr hlost
  · obtain ⟨d, hd⟩ := Classical.not_forall.mp hlost
    rw [Classical.not_not, hn, List.dropLast_concat] at hd
    obtain ⟨m', hm'⟩ := walk_eq_node_iff.mp hd
    have hback := hm'.back rfl hw
    rw [hw.start] at hback
    cases hm.agree hback
    exact .inl ⟨hl.no_slash, init, m', hn, hm'⟩

theorem Locates.names_ne_nil (hl : fs.Locates p s) : p.names ≠ [] := by
  obtain ⟨init, m, hn, -⟩ := hl.way
  simp [hn]

theorem Lost.entry (h : fs.Lost p) (hp : p.names ≠ []) : ∃ e, fs.entry p = .error e := by
  unfold FileSystem.entry
  cases ha : p.admit with
  | error e => exact ⟨e, rfl⟩
  | ok u =>
      rw [List.getLast?_eq_some_getLast hp]
      simp only [bind, Except.bind]
      cases hwalk : fs.walk .visit maxLinks (fs.start p) p.names.dropLast true with
      | error e => exact ⟨_, rfl⟩
      | ok found =>
          cases found with
          | vacant v => exact ⟨_, rfl⟩
          | node d => exact absurd hwalk (h d)

/-- The siblings of a path are lost with it. -/
theorem Lost.sibling (h : fs.Lost p) (hl : fs'.Locates p s) (hp : p.bytes ≠ []) {suffix : Bytes}
    (hs : Path.slash ∉ suffix) : fs.Lost (p.sibling suffix) := by
  obtain ⟨init, last, hn, hsib⟩ := Path.names_sibling hp hl.no_slash
  intro d
  rw [start, Path.isAbsolute_sibling hp, hsib suffix hs, List.dropLast_concat]
  have := h d
  rwa [start, hn, List.dropLast_concat] at this

/-- The way to the slot that an entry is. -/
theorem way_of_entry {slash : Bool} (h : fs.entry p = .ok (.slot s slash)) :
    p.admit = .ok () ∧ p.endsInSlash = slash ∧ Plain s.name ∧
      ∃ init m, p.names = init ++ [s.name] ∧ fs.Leads maxLinks (fs.start p) init true m s.dir := by
  unfold FileSystem.entry at h
  obtain ⟨⟨⟩, ha, h⟩ := bind_eq_ok_iff.mp h
  refine ⟨ha, ?_⟩
  split at h
  · cases h
  rename_i name hname
  split at h
  · cases h
  · cases h
  rename_i dir hwalk
  split at h
  · cases h
  rename_i hdots
  simp only [Except.ok.injEq, Entry.slot.injEq] at h
  obtain ⟨rfl, hslash⟩ := h
  simp only [Bool.or_eq_true, decide_eq_true_eq, not_or] at hdots
  obtain ⟨m, hm⟩ := walk_eq_node_iff.mp hwalk
  obtain ⟨init, hinit⟩ := List.getLast?_eq_some_iff.mp hname
  rw [hinit, List.dropLast_concat] at hm
  exact ⟨hslash, ⟨hdots.1, hdots.2⟩, init, m, hinit, hm⟩

/-- A path whose last name is a slot locates it. -/
theorem locates_of_entry (h : fs.entry p = .ok (.slot s false)) : fs.Locates p s := by
  obtain ⟨-, hslash, -, hway⟩ := way_of_entry h
  exact ⟨hslash, hway⟩

end FileSystem
end StubInsertion
