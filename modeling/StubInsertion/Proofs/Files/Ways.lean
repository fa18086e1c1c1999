import StubInsertion.Proofs.Files.Names

/-! # Ways through a file system

`Leads fs n dir names slash m i` says that looking up `names` from `dir`, following at most `n`
links, gives the node `i` and leaves `m` links to follow.  It holds exactly when the walk gives that
node (`walk_eq_node_iff`).

* **Composition.** A way along `a ++ b` is a way along `a` to a directory and a way along `b` from
  there (`Leads.walk_append`, `Leads.split`).
* **Agreement.** How many links may be followed does not matter to where a way leads
  (`Leads.agree`).
* **Frame.** A slot is a dead end if no directory lies behind it.  Ways to directories are those of
  any file system that agrees outside the dead ends (`Leads.frame`). -/

namespace StubInsertion
namespace FileSystem

/-- A name other than `.` and `..` that is short enough to be looked up. -/
structure Proper (name : Name) : Prop where
  ne_dot : name ≠ Path.dot
  ne_dotDot : name ≠ Path.dotDot
  length_le : name.length ≤ maxName

/-- Where the target of a link in `dir` is looked up first. -/
def base (fs : FileSystem) (target : Path) (dir : NodeId) : NodeId :=
  if target.isAbsolute then fs.root else dir

/-- Is a directory asked for once a link has been replaced by its target? -/
def asks (target : Path) (rest : List Name) (slash : Bool) : Bool :=
  if rest.isEmpty then slash || target.endsInSlash else slash

/-- Looking up names leads from a directory to a node; the numbers of links that may be followed
before and after. -/
inductive Leads (fs : FileSystem) : Nat → NodeId → List Name → Bool → Nat → NodeId → Prop
  | here {n dir slash} : (slash = true → fs.isDirectory dir = true) → Leads fs n dir [] slash n dir
  | dot {n dir rest slash m i} : fs.isDirectory dir = true → Leads fs n dir rest slash m i →
      Leads fs n dir (Path.dot :: rest) slash m i
  | dotDot {n dir rest slash m i} : fs.isDirectory dir = true →
      Leads fs n (fs.above dir) rest slash m i → Leads fs n dir (Path.dotDot :: rest) slash m i
  | enter {n dir name rest slash m i j} : fs.isDirectory dir = true → Proper name →
      fs.holds ⟨dir, name⟩ = some j → (∀ target, fs.node? j ≠ some (.symlink target)) →
      Leads fs n j rest slash m i → Leads fs n dir (name :: rest) slash m i
  | link {n dir name rest slash m i j target} : fs.isDirectory dir = true → Proper name →
      fs.holds ⟨dir, name⟩ = some j → fs.node? j = some (.symlink target) →
      Leads fs n (fs.base target dir) (target.names ++ rest) (asks target rest slash) m i →
      Leads fs (n + 1) dir (name :: rest) slash m i

variable {fs fs' : FileSystem}

/-! ### Equations of the walk -/

/-- What is looked up once a link has been replaced by its target. -/
def follow (fs : FileSystem) (intent : Intent) : Nat → NodeId → List Name → Bool →
    Except Errno Found
  | 0, _, _, _ => .error .tooManyLinks
  | n + 1, dir, names, slash => fs.walk intent n dir names slash

theorem walk_eq (intent : Intent) (n : Nat) :
    fs.walk intent n = fs.walkFrom intent (fs.follow intent n) := by
  cases n <;> rfl

theorem walk_nil (intent : Intent) (n : Nat) (dir : NodeId) (slash : Bool) :
    fs.walk intent n dir [] slash =
      if slash && !fs.isDirectory dir then .error .notADirectory else .ok (.node dir) := by
  rw [walk_eq, walkFrom]

theorem walk_of_not_directory (intent : Intent) (n : Nat) {dir : NodeId}
    (hd : fs.isDirectory dir = false) (name : Name) (rest : List Name) (slash : Bool) :
    fs.walk intent n dir (name :: rest) slash = .error .notADirectory := by
  rw [walk_eq, walkFrom]
  simp [hd]

theorem walk_dot (intent : Intent) (n : Nat) {dir : NodeId} (hd : fs.isDirectory dir = true)
    (rest : List Name) (slash : Bool) :
    fs.walk intent n dir (Path.dot :: rest) slash = fs.walk intent n dir rest slash := by
  rw [walk_eq, walkFrom]
  simp [hd]

theorem walk_dotDot (intent : Intent) (n : Nat) {dir : NodeId} (hd : fs.isDirectory dir = true)
    (rest : List Name) (slash : Bool) :
    fs.walk intent n dir (Path.dotDot :: rest) slash =
      fs.walk intent n (fs.above dir) rest slash := by
  have hne : Path.dotDot ≠ Path.dot := by decide
  rw [walk_eq, walkFrom]
  simp [hd, hne]

/-- What becomes of a name that is looked up in its directory. -/
theorem walk_name {intent : Intent} (n : Nat) {dir : NodeId} {name : Name} {rest : List Name}
    {slash : Bool} (hd : fs.isDirectory dir = true) (h1 : name ≠ Path.dot)
    (h2 : name ≠ Path.dotDot) (hi : (rest.isEmpty && slash && decide (intent = .create)) = false) :
    fs.walk intent n dir (name :: rest) slash =
      if name.length > maxName then .error .nameTooLong
      else match fs.holds ⟨dir, name⟩ with
      | none => if rest.isEmpty && !slash then .ok (.vacant ⟨dir, name⟩) else .error .notFound
      | some j => match fs.node? j with
        | some (.symlink target) => fs.follow intent n (fs.base target dir) (target.names ++ rest)
            (asks target rest slash)
        | _ => fs.walk intent n j rest slash := by
  rw [walk_eq, walkFrom]
  simp only [hd, h1, h2, hi]
  rfl

/-- A name that holds no link is entered. -/
theorem walk_enter {intent : Intent} (n : Nat) {dir j : NodeId} {name : Name} {rest : List Name}
    {slash : Bool} (hd : fs.isDirectory dir = true) (hn : Proper name)
    (hh : fs.holds ⟨dir, name⟩ = some j) (hj : ∀ target, fs.node? j ≠ some (.symlink target))
    (hi : (rest.isEmpty && slash && decide (intent = .create)) = false) :
    fs.walk intent n dir (name :: rest) slash = fs.walk intent n j rest slash := by
  rw [walk_name n hd hn.ne_dot hn.ne_dotDot hi, if_neg (Nat.not_lt.mpr hn.length_le), hh]
  split
  · rename_i hnone
    cases hnone
  · rename_i k hk
    cases hk
    split
    · rename_i target hk
      exact absurd hk (hj target)
    · rfl

/-- A name that holds a link is replaced by the link's target. -/
theorem walk_link {intent : Intent} (n : Nat) {dir j : NodeId} {name : Name} {target : Path}
    {rest : List Name} {slash : Bool} (hd : fs.isDirectory dir = true) (hn : Proper name)
    (hh : fs.holds ⟨dir, name⟩ = some j) (hj : fs.node? j = some (.symlink target))
    (hi : (rest.isEmpty && slash && decide (intent = .create)) = false) :
    fs.walk intent n dir (name :: rest) slash =
      fs.follow intent n (fs.base target dir) (target.names ++ rest) (asks target rest slash) := by
  rw [walk_name n hd hn.ne_dot hn.ne_dotDot hi, if_neg (Nat.not_lt.mpr hn.length_le), hh]
  simp only [hj]

/-! ### Ways and walks -/

theorem leads_of_walk (n : Nat) (dir : NodeId) (names : List Name) (slash : Bool) (i : NodeId)
    (h : fs.walk .visit n dir names slash = .ok (.node i)) :
    ∃ m, fs.Leads n dir names slash m i := by
  match names with
  | [] =>
      rw [walk_nil] at h
      split at h
      · cases h
      · cases h
        exact ⟨n, .here (by simp_all)⟩
  | name :: rest =>
      cases hd : fs.isDirectory dir with
      | false =>
          rw [walk_of_not_directory _ _ hd] at h
          cases h
      | true =>
      by_cases h1 : name = Path.dot
      · subst h1
        rw [walk_dot _ _ hd] at h
        obtain ⟨m, hm⟩ := leads_of_walk n dir rest slash i h
        exact ⟨m, .dot hd hm⟩
      by_cases h2 : name = Path.dotDot
      · subst h2
        rw [walk_dotDot _ _ hd] at h
        obtain ⟨m, hm⟩ := leads_of_walk n (fs.above dir) rest slash i h
        exact ⟨m, .dotDot hd hm⟩
      rw [walk_name n hd h1 h2 (by simp)] at h
      split at h
      · cases h
      · rename_i hlen
        have hn : Proper name := ⟨h1, h2, Nat.not_lt.mp hlen⟩
        split at h
        · split at h <;> cases h
        · rename_i j hh
          split at h
          · rename_i target hj
            cases n with
            | zero => cases h
            | succ n =>
                obtain ⟨m, hm⟩ := leads_of_walk n _ _ _ i h
                exact ⟨m, .link hd hn hh hj hm⟩
          · rename_i hj
            obtain ⟨m, hm⟩ := leads_of_walk n j rest slash i h
            exact ⟨m, .enter hd hn hh (fun target e => hj target e) hm⟩
termination_by (n, names.length)

theorem asks_true (target : Path) (rest : List Name) : asks target rest true = true := by
  simp [asks]

theorem asks_append (target : Path) (names : List Name) {rest : List Name} (hr : rest ≠ [])
    (slash : Bool) : asks target (names ++ rest) slash = slash := by
  simp [asks, hr]

/-- Along a way to a directory the walk goes on with what is left of the names. -/
theorem Leads.walk_append {n m : Nat} {dir d : NodeId} {names : List Name} {slash : Bool}
    (h : fs.Leads n dir names slash m d) (hs : slash = true) (intent : Intent) {rest : List Name}
    (hr : rest ≠ []) (slash' : Bool) :
    fs.walk intent n dir (names ++ rest) slash' = fs.walk intent m d rest slash' := by
  have hempty (more : List Name) : (more ++ rest).isEmpty = false := by simp [hr]
  induction h with
  | here => rfl
  | dot hd _ ih => rw [List.cons_append, walk_dot _ _ hd, ih hs]
  | dotDot hd _ ih => rw [List.cons_append, walk_dotDot _ _ hd, ih hs]
  | enter hd hn hh hj _ ih =>
      rw [List.cons_append, walk_enter _ hd hn hh hj (by simp [hempty]), ih hs]
  | @link _ _ _ more flag _ _ _ target hd hn hh hj _ ih =>
      have hask : asks target more flag = true := by rw [hs, asks_true]
      rw [List.cons_append, walk_link _ hd hn hh hj (by simp [hempty]), follow,
        asks_append _ _ hr, ← List.append_assoc, ih hask]

theorem Leads.isDirectory {n m : Nat} {dir d : NodeId} {names : List Name} {slash : Bool}
    (h : fs.Leads n dir names slash m d) (hne : names ≠ []) : fs.isDirectory dir = true := by
  cases h with
  | here => exact absurd rfl hne
  | dot hd _ => exact hd
  | dotDot hd _ => exact hd
  | enter hd _ _ _ _ => exact hd
  | link hd _ _ _ _ => exact hd

/-- What is found where a directory is asked for is one. -/
theorem Leads.target_isDirectory {n m : Nat} {dir d : NodeId} {names : List Name} {slash : Bool}
    (h : fs.Leads n dir names slash m d) (hs : slash = true) : fs.isDirectory d = true := by
  induction h with
  | here hd => exact hd hs
  | dot _ _ ih => exact ih hs
  | dotDot _ _ ih => exact ih hs
  | enter _ _ _ _ _ ih => exact ih hs
  | link _ _ _ _ _ ih => exact ih (by rw [hs, asks_true])

theorem Leads.walk {n m : Nat} {dir i : NodeId} {names : List Name} {slash : Bool}
    (h : fs.Leads n dir names slash m i) : fs.walk .visit n dir names slash = .ok (.node i) := by
  induction h with
  | here hd =>
      rw [walk_nil, if_neg]
      simpa using hd
  | dot hd _ ih => rw [walk_dot _ _ hd, ih]
  | dotDot hd _ ih => rw [walk_dotDot _ _ hd, ih]
  | enter hd hn hh hj _ ih => rw [walk_enter _ hd hn hh hj (by simp), ih]
  | link hd hn hh hj _ ih => rw [walk_link _ hd hn hh hj (by simp), follow, ih]

/-- **Ways are what the walk finds.** -/
theorem walk_eq_node_iff {n : Nat} {dir i : NodeId} {names : List Name} {slash : Bool} :
    fs.walk .visit n dir names slash = .ok (.node i) ↔ ∃ m, fs.Leads n dir names slash m i :=
  ⟨leads_of_walk n dir names slash i, fun ⟨_, h⟩ => h.walk⟩

/-- A way along two lists of names goes through a directory between them. -/
theorem Leads.split {n m : Nat} {dir i : NodeId} {a b names : List Name} {slash : Bool}
    (h : fs.Leads n dir names slash m i) (hn : names = a ++ b) (hb : b ≠ []) :
    ∃ k d, fs.Leads n dir a true k d ∧ fs.Leads k d b slash m i := by
  induction h generalizing a with
  | here =>
      obtain ⟨-, rfl⟩ := List.append_eq_nil_iff.mp hn.symm
      exact absurd rfl hb
  | @dot n dir rest slash m i hd h ih =>
      cases a with
      | nil =>
          subst hn
          exact ⟨n, dir, .here fun _ => hd, .dot hd h⟩
      | cons x a =>
          rw [List.cons_append, List.cons.injEq] at hn
          obtain ⟨rfl, rfl⟩ := hn
          obtain ⟨k, d, h1, h2⟩ := ih rfl
          exact ⟨k, d, .dot hd h1, h2⟩
  | @dotDot n dir rest slash m i hd h ih =>
      cases a with
      | nil =>
          subst hn
          exact ⟨n, dir, .here fun _ => hd, .dotDot hd h⟩
      | cons x a =>
          rw [List.cons_append, List.cons.injEq] at hn
          obtain ⟨rfl, rfl⟩ := hn
          obtain ⟨k, d, h1, h2⟩ := ih rfl
          exact ⟨k, d, .dotDot hd h1, h2⟩
  | @enter n dir name rest slash m i j hd hp hh hj h ih =>
      cases a with
      | nil =>
          subst hn
          exact ⟨n, dir, .here fun _ => hd, .enter hd hp hh hj h⟩
      | cons x a =>
          rw [List.cons_append, List.cons.injEq] at hn
          obtain ⟨rfl, rfl⟩ := hn
          obtain ⟨k, d, h1, h2⟩ := ih rfl
          exact ⟨k, d, .enter hd hp hh hj h1, h2⟩
  | @link n dir name rest slash m i j target hd hp hh hj h ih =>
      cases a with
      | nil =>
          subst hn
          exact ⟨n + 1, dir, .here fun _ => hd, .link hd hp hh hj h⟩
      | cons x a =>
          rw [List.cons_append, List.cons.injEq] at hn
          obtain ⟨rfl, rfl⟩ := hn
          obtain ⟨k, d, h1, h2⟩ := ih (List.append_assoc ..).symm
          rw [asks_append _ _ hb] at h2
          exact ⟨k, d, .link hd hp hh hj (by rw [asks_true]; exact h1), h2⟩

/-- The number of links allowed and the wish for a directory do not change where a way leads. -/
theorem Leads.agree {n n' m m' : Nat} {dir i i' : NodeId} {names : List Name} {slash slash' : Bool}
    (h : fs.Leads n dir names slash m i) (h' : fs.Leads n' dir names slash' m' i') : i = i' := by
  induction h generalizing n' slash' with
  | here =>
      cases h'
      rfl
  | dot _ _ ih =>
      cases h' with
      | dot _ h' => exact ih h'
      | enter _ hn _ _ _ => exact absurd rfl hn.ne_dot
      | link _ hn _ _ _ => exact absurd rfl hn.ne_dot
  | dotDot _ _ ih =>
      cases h' with
      | dotDot _ h' => exact ih h'
      | enter _ hn _ _ _ => exact absurd rfl hn.ne_dotDot
      | link _ hn _ _ _ => exact absurd rfl hn.ne_dotDot
  | enter _ hn hh hj _ ih =>
      cases h' with
      | dot _ _ => exact absurd rfl hn.ne_dot
      | dotDot _ _ => exact absurd rfl hn.ne_dotDot
      | enter _ _ hh' _ h' =>
          cases hh.symm.trans hh'
          exact ih h'
      | link _ _ hh' hj' _ =>
          cases hh.symm.trans hh'
          exact absurd hj' (hj _)
  | link _ hn hh hj _ ih =>
      cases h' with
      | dot _ _ => exact absurd rfl hn.ne_dot
      | dotDot _ _ => exact absurd rfl hn.ne_dotDot
      | enter _ _ hh' hj' _ =>
          cases hh.symm.trans hh'
          exact absurd hj (hj' _)
      | link _ _ hh' hj' h' =>
          cases hh.symm.trans hh'
          cases hj.symm.trans hj'
          exact ih h'

/-! ### Dead ends -/

/-- Whatever the slot holds is no directory and no link to one. -/
def DeadEnd (fs : FileSystem) (s : Slot) : Prop :=
  ∀ j, fs.holds s = some j → fs.isDirectory j = false ∧
    ∀ target, fs.node? j = some (.symlink target) →
      ∀ n m d, ¬ fs.Leads n (fs.base target s.dir) target.names true m d

theorem deadEnd_of_vacant {s : Slot} (h : fs.holds s = none) : fs.DeadEnd s := by
  intro j hj
  rw [h] at hj
  cases hj

/-- A name that leads to something other than a directory is a dead end. -/
theorem deadEnd_of_leads {n m : Nat} {dir i : NodeId} {name : Name}
    (h : fs.Leads n dir [name] false m i) (hi : fs.isDirectory i = false)
    (h1 : name ≠ Path.dot) (h2 : name ≠ Path.dotDot) : fs.DeadEnd ⟨dir, name⟩ := by
  intro j hj
  cases h with
  | dot _ _ => exact absurd rfl h1
  | dotDot _ _ => exact absurd rfl h2
  | enter _ _ hh hne hrest =>
      cases hh.symm.trans hj
      cases hrest
      exact ⟨hi, fun target ht => absurd ht (hne target)⟩
  | @link n dir name rest slash m i k target _ _ hh hk hrest =>
      cases hh.symm.trans hj
      refine ⟨by simp [FileSystem.isDirectory, hk, Node.isDirectory], ?_⟩
      intro target' ht n' m' d hd
      cases hk.symm.trans ht
      rw [List.append_nil] at hrest
      have hdir := hd.target_isDirectory rfl
      rw [hd.agree hrest, hi] at hdir
      cases hdir

/-- Ways that lead to a directory in one file system are there in the other. -/
structure SameWays (fs fs' : FileSystem) : Prop where
  root : fs'.root = fs.root
  here : fs'.here = fs.here
  directory : ∀ i, fs.isDirectory i = true → fs'.node? i = fs.node? i
  only : ∀ i, fs'.isDirectory i = true → fs.isDirectory i = true
  slot : ∀ s j, fs.holds s = some j → ¬ fs.DeadEnd s →
    fs'.holds s = some j ∧ fs'.node? j = fs.node? j

theorem SameWays.isDirectory (hw : SameWays fs fs') {i : NodeId}
    (h : fs.isDirectory i = true) : fs'.isDirectory i = true := by
  rw [FileSystem.isDirectory, hw.directory i h]
  exact h

theorem SameWays.above (hw : SameWays fs fs') {i : NodeId} (h : fs.isDirectory i = true) :
    fs'.above i = fs.above i := by
  have hdir (k : NodeId) : fs'.isDirectory k = fs.isDirectory k :=
    Bool.eq_iff_iff.mpr ⟨hw.only k, hw.isDirectory⟩
  unfold FileSystem.above
  rw [hw.directory i h]
  simp only [hdir]

theorem SameWays.base (hw : SameWays fs fs') (target : Path) (dir : NodeId) :
    fs'.base target dir = fs.base target dir := by
  rw [FileSystem.base, FileSystem.base, hw.root]

theorem SameWays.start (hw : SameWays fs fs') (p : Path) : fs'.start p = fs.start p := by
  rw [FileSystem.start, FileSystem.start, hw.root, hw.here]

theorem Leads.start_isDirectory {n m : Nat} {dir d : NodeId} {names : List Name} {slash : Bool}
    (h : fs.Leads n dir names slash m d) (hs : slash = true) : fs.isDirectory dir = true := by
  by_cases hne : names = []
  · subst hne
    cases h with
    | here hd => exact hd hs
  · exact h.isDirectory hne

/-- **No way to a directory passes a dead end**, so other contents of dead ends change no such
way. -/
theorem Leads.frame {n m : Nat} {dir d : NodeId} {names : List Name} {slash : Bool}
    (h : fs.Leads n dir names slash m d) (hs : slash = true) (hw : SameWays fs fs') :
    fs'.Leads n dir names slash m d := by
  induction h with
  | here hd => exact .here fun h => hw.isDirectory (hd h)
  | dot hd _ ih => exact .dot (hw.isDirectory hd) (ih hs)
  | dotDot hd _ ih => exact .dotDot (hw.isDirectory hd) (by rw [hw.above hd]; exact ih hs)
  | @enter n dir name rest slash m i j hd hn hh hj h ih =>
      have hlive : ¬ fs.DeadEnd ⟨dir, name⟩ := by
        intro hdead
        have := (hdead j hh).1
        rw [h.start_isDirectory hs] at this
        cases this
      obtain ⟨hh', hj'⟩ := hw.slot _ _ hh hlive
      exact .enter (hw.isDirectory hd) hn hh' (fun target ht => hj target (hj' ▸ ht)) (ih hs)
  | @link n dir name rest slash m i j target hd hn hh hj h ih =>
      rw [hs, asks_true] at h
      have hlive : ¬ fs.DeadEnd ⟨dir, name⟩ := by
        intro hdead
        have hnone := (hdead j hh).2 target hj
        by_cases hr : rest = []
        · subst hr
          rw [List.append_nil] at h
          exact hnone _ _ _ h
        · obtain ⟨k, e, h1, -⟩ := h.split rfl hr
          exact hnone _ _ _ h1
      obtain ⟨hh', hj'⟩ := hw.slot _ _ hh hlive
      refine .link (hw.isDirectory hd) hn hh' (hj' ▸ hj) ?_
      rw [hw.base]
      exact ih (by rw [hs, asks_true])

end FileSystem
end StubInsertion
