import StubInsertion.Files.Operations
import StubInsertion.Proofs.Files.Ways

/-! # Entries under paths

`Locates p s` says that the last name of `p`, looked up in the directory to which the names ahead of
it lead, is the slot `s`.

* **Location.** A path that names a file locates a slot (`exists_locates`), its siblings locate
  slots of the same directory (`Locates.sibling`), and all of them are the same in a file system
  with the same ways (`Locates.frame`).
* **Calls.** For a path that locates a slot `create_eq_ok_iff` and `rename_eq_ok_iff` say exactly
  when a call succeeds and what it does; `unlink_eq_ok` takes away a file. -/

namespace StubInsertion

/-- Results can be compared. -/
instance decidableEqExcept {α ε : Type} [DecidableEq α] [DecidableEq ε] :
    DecidableEq (Except ε α)
  | .ok a, .ok b => decidable_of_iff (a = b) (by simp)
  | .error e, .error f => decidable_of_iff (e = f) (by simp)
  | .ok _, .error _ => isFalse (by simp)
  | .error _, .ok _ => isFalse (by simp)

theorem bind_eq_ok_iff {α β ε : Type} {x : Except ε α} {f : α → Except ε β} {b : β} :
    (x >>= f) = .ok b ↔ ∃ a, x = .ok a ∧ f a = .ok b := by
  cases x <;> simp [bind, Except.bind]

namespace FileSystem

variable {fs fs' : FileSystem} {p q : Path} {s t : Slot}

/-- The node that the last name of a path holds, no link followed there. -/
def occupant? (fs : FileSystem) (p : Path) : Option NodeId :=
  match fs.entry p with
  | .ok (.slot s _) => fs.holds s
  | _ => none

/-- The last name of the path is this slot. -/
structure Locates (fs : FileSystem) (p : Path) (s : Slot) : Prop where
  no_slash : p.endsInSlash = false
  way : ∃ init m, p.names = init ++ [s.name] ∧
    fs.Leads maxLinks (fs.start p) init true m s.dir

/-- A name other than `.` and `..`. -/
structure Plain (name : Name) : Prop where
  ne_dot : name ≠ Path.dot
  ne_dotDot : name ≠ Path.dotDot

/-- A file can be made under the path. -/
structure Free (fs : FileSystem) (p : Path) (s : Slot) : Prop where
  admitted : p.admit = .ok ()
  length_le : s.name.length ≤ maxName
  vacant : fs.holds s = none

/-- Whatever the path names is a directory. -/
def NoFile (fs : FileSystem) (p : Path) : Prop :=
  ∀ k, fs.occupant? p = some k → fs.isDirectory k = true

/-- The last name of the path is no symbolic link. -/
def NoLink (fs : FileSystem) (p : Path) : Prop :=
  ∀ k target, fs.occupant? p = some k → fs.node? k ≠ some (.symlink target)

theorem Proper.plain {name : Name} (h : Proper name) : Plain name := ⟨h.ne_dot, h.ne_dotDot⟩

theorem Free.proper (h : fs.Free p s) (hn : Plain s.name) : Proper s.name :=
  ⟨hn.ne_dot, hn.ne_dotDot, h.length_le⟩

/-! ### Location -/

theorem Locates.isDirectory (h : fs.Locates p s) : fs.isDirectory s.dir = true := by
  obtain ⟨init, m, -, hm⟩ := h.way
  exact hm.target_isDirectory rfl

theorem Locates.frame (h : fs.Locates p s) (hw : SameWays fs fs') : fs'.Locates p s := by
  obtain ⟨init, m, hn, hm⟩ := h.way
  refine ⟨h.no_slash, init, m, hn, ?_⟩
  rw [hw.start]
  exact hm.frame rfl hw

/-- A sibling is found in the same directory. -/
theorem Locates.sibling (h : fs.Locates p s) (hp : p.bytes ≠ []) {suffix : Bytes}
    (hne : suffix ≠ []) (hs : Path.slash ∉ suffix) :
    fs.Locates (p.sibling suffix) ⟨s.dir, s.name ++ suffix⟩ := by
  obtain ⟨init, m, hn, hm⟩ := h.way
  obtain ⟨init', last, hn', hsib⟩ := Path.names_sibling hp h.no_slash
  obtain ⟨rfl, hlast⟩ := List.append_inj' (hn.symm.trans hn') rfl
  cases hlast
  refine ⟨Path.endsInSlash_sibling p hne hs, init, m, hsib suffix hs, ?_⟩
  rw [start, Path.isAbsolute_sibling hp]
  exact hm

theorem Locates.entry (h : fs.Locates p s) (ha : p.admit = .ok ()) :
    fs.entry p =
      if s.name = Path.dot || s.name = Path.dotDot then .ok .dots else .ok (.slot s false) := by
  obtain ⟨init, m, hn, hm⟩ := h.way
  unfold FileSystem.entry
  rw [ha, hn, List.getLast?_concat, List.dropLast_concat]
  simp only [bind, Except.bind, hm.walk, h.no_slash]

theorem Locates.entry_plain (h : fs.Locates p s) (ha : p.admit = .ok ()) (hn : Plain s.name) :
    fs.entry p = .ok (.slot s false) := by
  rw [h.entry ha]
  simp [hn.ne_dot, hn.ne_dotDot]

theorem Locates.occupant? (h : fs.Locates p s) (ha : p.admit = .ok ()) (hn : Plain s.name) :
    fs.occupant? p = fs.holds s := by
  rw [FileSystem.occupant?, h.entry_plain ha hn]

theorem Locates.occupant?_eq_some_iff (h : fs.Locates p s) (hn : Plain s.name) {i : NodeId} :
    fs.occupant? p = some i ↔ p.admit = .ok () ∧ fs.holds s = some i := by
  cases ha : p.admit with
  | ok u =>
      rw [h.occupant? ha hn]
      simp
  | error e =>
      have hentry : fs.entry p = .error e := by
        unfold FileSystem.entry
        rw [ha]
        rfl
      rw [FileSystem.occupant?, hentry]
      simp

theorem Locates.occupant?_eq_none (h : fs.Locates p s) (hn : Plain s.name)
    (hv : fs.holds s = none) : fs.occupant? p = none := by
  cases ho : fs.occupant? p with
  | none => rfl
  | some i =>
      have hi := ((h.occupant?_eq_some_iff hn).mp ho).2
      rw [hv] at hi
      cases hi

theorem Locates.find (h : fs.Locates p s) :
    ∃ m, ∀ intent, fs.find intent p = fs.walk intent m s.dir [s.name] false := by
  obtain ⟨init, m, hn, hm⟩ := h.way
  refine ⟨m, fun intent => ?_⟩
  rw [FileSystem.find, hn, h.no_slash]
  exact hm.walk_append rfl intent (by simp) false

/-- The way to a file that a path names. -/
theorem leads_of_resolve {i : NodeId} (h : fs.resolve p = .ok i) :
    p.admit = .ok () ∧ ∃ m, fs.Leads maxLinks (fs.start p) p.names p.endsInSlash m i := by
  unfold resolve at h
  obtain ⟨⟨⟩, ha, h⟩ := bind_eq_ok_iff.mp h
  refine ⟨ha, ?_⟩
  split at h
  · rename_i hf
    cases h
    exact walk_eq_node_iff.mp hf
  · cases h
  · cases h

/-- **A path that names a file locates a slot**, behind which there is no directory. -/
theorem exists_locates {i : NodeId} (h : fs.resolve p = .ok i) (hi : fs.isDirectory i = false) :
    p.admit = .ok () ∧ ∃ s, fs.Locates p s ∧ (Plain s.name → s.name.length ≤ maxName ∧
      fs.DeadEnd s ∧ ∃ j, fs.holds s = some j ∧ fs.isDirectory j = false) := by
  obtain ⟨ha, m, hm⟩ := leads_of_resolve h
  refine ⟨ha, ?_⟩
  have hslash : p.endsInSlash = false := by
    cases hs : p.endsInSlash with
    | false => rfl
    | true =>
        have := hm.target_isDirectory hs
        rw [hi] at this
        cases this
  obtain ⟨init, last, hn, -⟩ := Path.names_sibling (Path.admit_eq_ok_iff.mp ha).2.1 hslash
  rw [hslash] at hm
  obtain ⟨k, d, h1, h2⟩ := hm.split hn (by simp)
  refine ⟨⟨d, last⟩, ⟨hslash, init, k, hn, h1⟩, fun hp => ?_⟩
  have hdead : fs.DeadEnd ⟨d, last⟩ := deadEnd_of_leads h2 hi hp.ne_dot hp.ne_dotDot
  cases h2 with
  | dot _ _ => exact absurd rfl hp.ne_dot
  | dotDot _ _ => exact absurd rfl hp.ne_dotDot
  | enter _ hl hh _ _ => exact ⟨hl.length_le, hdead, _, hh, (hdead _ hh).1⟩
  | link _ hl hh _ _ => exact ⟨hl.length_le, hdead, _, hh, (hdead _ hh).1⟩

/-! ### Calls -/

theorem occupant_eq_ok_iff {i : NodeId} :
    fs.occupant s = .ok i ↔ s.name.length ≤ maxName ∧ fs.holds s = some i := by
  unfold occupant
  split
  · simp
    omega
  · cases fs.holds s <;> simp
    omega

/-- A name that holds no link is what the path names. -/
theorem Locates.resolve (h : fs.Locates p s) (ha : p.admit = .ok ()) (hn : Proper s.name)
    {j : NodeId} (hh : fs.holds s = some j) (hj : ∀ target, fs.node? j ≠ some (.symlink target)) :
    fs.resolve p = .ok j := by
  obtain ⟨m, hm⟩ := h.find
  unfold FileSystem.resolve
  rw [ha, hm, walk_enter m h.isDirectory hn hh hj (by simp), walk_nil]
  rfl

/-- A file is made under a path exactly when the path is free. -/
theorem create_eq_ok_iff (h : fs.Locates p s) (hn : Plain s.name) (hv : fs.NoFile p)
    {r : NodeId × FileSystem} :
    fs.create p = .ok r ↔ fs.Free p s ∧ r = (fs.fresh, fs.add s (.file creationMode [])) := by
  obtain ⟨m, hm⟩ := h.find
  unfold create
  rw [hm, walk_name m h.isDirectory hn.ne_dot hn.ne_dotDot (by simp), bind_eq_ok_iff]
  constructor
  · rintro ⟨⟨⟩, ha, hr⟩
    by_cases hlen : s.name.length > maxName
    · rw [if_pos hlen] at hr
      cases hr
    · rw [if_neg hlen] at hr
      cases hh : fs.holds s with
      | none =>
          rw [hh] at hr
          cases hr
          exact ⟨⟨ha, Nat.not_lt.mp hlen, hh⟩, rfl⟩
      | some k =>
          have hk := hv k ((h.occupant? ha hn).trans hh)
          obtain ⟨mode, above, hnode⟩ : ∃ mode above, fs.node? k = some (.directory mode above) := by
            unfold FileSystem.isDirectory at hk
            cases hnode : fs.node? k with
            | none => simp [hnode] at hk
            | some node => cases node <;> simp_all [Node.isDirectory]
          rw [hh] at hr
          simp only [hnode, walk_nil, Bool.false_and, Bool.false_eq_true, if_false, reduceCtorEq] at hr
  · rintro ⟨hfree, rfl⟩
    refine ⟨(), hfree.admitted, ?_⟩
    rw [if_neg (Nat.not_lt.mpr hfree.length_le), hfree.vacant]
    rfl

/-- An entry that is no directory is removed. -/
theorem unlink_eq_ok (h : fs.Locates p s) (ha : p.admit = .ok ()) (hn : Proper s.name) {j : NodeId}
    (hh : fs.holds s = some j) (hj : fs.isDirectory j = false) :
    fs.unlink p = .ok (fs.vacate s) := by
  unfold unlink
  rw [h.entry_plain ha hn.plain]
  have ho : fs.occupant s = .ok j := occupant_eq_ok_iff.mpr ⟨hn.length_le, hh⟩
  simp only [bind, Except.bind, ho, hj]
  rfl

theorem encloses_of_not_directory {i : NodeId} (hi : fs.isDirectory i = false) (dir : NodeId) :
    fs.encloses i dir = false := by
  simp [encloses, hi]

/-- What a call to rename found when it succeeded, and what it did. -/
structure Renamed (fs : FileSystem) (p q : Path) (fs' : FileSystem) (s t : Slot) (j : NodeId) :
    Prop where
  source : ∃ slash, fs.entry p = .ok (.slot s slash)
  target : ∃ slash, fs.entry q = .ok (.slot t slash)
  occupied : fs.occupant s = .ok j
  length_le : t.name.length ≤ maxName
  result : fs.holds t = some j ∧ fs' = fs ∨ fs.replaceable j t = .ok () ∧ fs' = fs.move j s t

theorem renamed_of_rename (h : fs.rename p q = .ok fs') : ∃ s t j, fs.Renamed p q fs' s t j := by
  unfold rename at h
  dsimp only at h
  split at h
  · cases h
  obtain ⟨e, he, h⟩ := bind_eq_ok_iff.mp h
  obtain ⟨e', he', h⟩ := bind_eq_ok_iff.mp h
  cases e with
  | dots => cases h
  | slot s slash =>
  cases e' with
  | dots => cases h
  | slot t slash' =>
      obtain ⟨j, hj, h⟩ := bind_eq_ok_iff.mp h
      split at h
      · cases h
      rename_i hlen
      split at h
      · cases h
      split at h
      · cases h
      split at h
      · cases h
      refine ⟨s, t, j, ⟨slash, he⟩, ⟨slash', he'⟩, hj, Nat.not_lt.mp hlen, ?_⟩
      split at h
      · rename_i hsame
        cases h
        exact .inl ⟨hsame, rfl⟩
      · split at h
        · cases h
        · rename_i hr
          cases h
          exact .inr ⟨hr, rfl⟩

/-- An entry that is no directory gets another name, which is free. -/
theorem rename_eq_ok (hp : fs.Locates p s) (ha : p.admit = .ok ()) (hn : Proper s.name) {j : NodeId}
    (hh : fs.holds s = some j) (hj : fs.isDirectory j = false) (hq : fs.Locates q t)
    (ht : Plain t.name) (hfree : fs.Free q t) : fs.rename p q = .ok (fs.move j s t) := by
  have hzero : p.bytes.contains 0 = false := by
    simpa using (Path.admit_eq_ok_iff.mp ha).1
  have hzero' : q.bytes.contains 0 = false := by
    simpa using (Path.admit_eq_ok_iff.mp hfree.admitted).1
  have ho : fs.occupant s = .ok j := occupant_eq_ok_iff.mpr ⟨hn.length_le, hh⟩
  have hlen : ¬ t.name.length > maxName := Nat.not_lt.mpr hfree.length_le
  unfold rename
  rw [hzero, hzero', hp.entry_plain ha hn.plain, hq.entry_plain hfree.admitted ht]
  simp only [bind, Except.bind, ho, hlen, hj, encloses_of_not_directory hj, hfree.vacant,
    replaceable, Bool.or_self, Bool.not_false, Bool.and_false, Bool.false_eq_true, if_false,
    Option.any_none, reduceCtorEq]

theorem Locates.plain_of_entry {slash : Bool} (h : fs.Locates p s) (ha : p.admit = .ok ())
    (he : fs.entry p = .ok (.slot t slash)) : Plain s.name := by
  rw [h.entry ha] at he
  split at he
  · cases he
  · rename_i hd
    simp only [Bool.or_eq_true, decide_eq_true_eq, not_or] at hd
    exact ⟨hd.1, hd.2⟩

/-- An entry that is no directory gets another name exactly when that name is free. -/
theorem rename_eq_ok_iff (hp : fs.Locates p s) (ha : p.admit = .ok ()) (hq : fs.Locates q t)
    (ht : Plain t.name) (hv : fs.NoFile q)
    (hs : Plain s.name → ∀ j, fs.holds s = some j → fs.isDirectory j = false) :
    fs.rename p q = .ok fs' ↔ Proper s.name ∧ fs.Free q t ∧
      ∃ j, fs.holds s = some j ∧ fs' = fs.move j s t := by
  constructor
  · intro h
    obtain ⟨s', t', j, ⟨slash, hes⟩, ⟨slash', het⟩, ho, hlen, hres⟩ := renamed_of_rename h
    have hplain : Plain s.name := hp.plain_of_entry ha hes
    have hqa : q.admit = .ok () := by
      unfold FileSystem.entry at het
      obtain ⟨⟨⟩, hqa, -⟩ := bind_eq_ok_iff.mp het
      exact hqa
    cases (hp.entry_plain ha hplain).symm.trans hes
    cases (hq.entry_plain hqa ht).symm.trans het
    obtain ⟨hlen', hj⟩ := occupant_eq_ok_iff.mp ho
    have hnd := hs hplain j hj
    refine ⟨⟨hplain.ne_dot, hplain.ne_dotDot, hlen'⟩, ?_⟩
    cases hk : fs.holds t with
    | none =>
        rw [hk] at hres
        obtain ⟨hno, -⟩ | ⟨-, rfl⟩ := hres
        · cases hno
        · exact ⟨⟨hqa, hlen, hk⟩, j, hj, rfl⟩
    | some k =>
        have hkd := hv k ((hq.occupant? hqa ht).trans hk)
        rw [hk] at hres
        obtain ⟨hsame, -⟩ | ⟨hr, -⟩ := hres
        · cases hsame
          rw [hnd] at hkd
          cases hkd
        · simp [replaceable, hk, hnd, hkd] at hr
  · rintro ⟨hn, hfree, j, hj, rfl⟩
    exact rename_eq_ok hp ha hn hj (hs hn.plain j hj) hq ht hfree

end FileSystem
end StubInsertion
