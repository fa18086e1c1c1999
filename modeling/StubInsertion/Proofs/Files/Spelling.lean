import Mathlib.Data.List.DropRight
import StubInsertion.Files.Operations
import StubInsertion.Proofs.Files.Entries

/-! # Spellings of one way

A path can be spelled with more slashes than it needs, and with names `.` that lead nowhere.  Paths
that are put together from a directory and a relative path lose some of these, and are looked up as
before.

* **Walks.** Names `.` do not matter to a walk, unless they come last (`walk_undotted`).
* **Pieces.** A path is its pieces with slashes between them (`unsplit_split`, `split_unsplit`), and
  `trimEnd` takes away only pieces that lead nowhere (`filter_trimEnd`).
* **Relatives.** `Path.withLast p f` has `f` in the place of the last name of `p`.  Reading `f` from
  the parent of `p` gives a shorter spelling of that path (`Tidies`, `tidies_join_parent`), so both
  lead to the same, up to the length that a path may have (`Tidies.find`, `Tidies.resolve`). -/

namespace StubInsertion

/-! ### Walks -/

/-- The names without those that lead nowhere. -/
def undotted (names : List Name) : List Name := names.filter (· ≠ Path.dot)

namespace FileSystem

variable {fs : FileSystem} {intent : Intent} {slash : Bool}

/-- What comes last in a walk can be replaced by what leads to the same from everywhere. -/
theorem walk_append_congr {rest rest' : List Name} (hr : rest ≠ []) (hr' : rest' ≠ [])
    (h : ∀ n dir, fs.walk intent n dir rest slash = fs.walk intent n dir rest' slash)
    (n : Nat) (dir : NodeId) (names : List Name) :
    fs.walk intent n dir (names ++ rest) slash = fs.walk intent n dir (names ++ rest') slash := by
  match names with
  | [] => exact h n dir
  | name :: names =>
      rw [List.cons_append, List.cons_append]
      cases hd : fs.isDirectory dir with
      | false => rw [walk_of_not_directory _ _ hd, walk_of_not_directory _ _ hd]
      | true =>
      by_cases h1 : name = Path.dot
      · subst h1
        rw [walk_dot _ _ hd, walk_dot _ _ hd]
        exact walk_append_congr hr hr' h n dir names
      by_cases h2 : name = Path.dotDot
      · subst h2
        rw [walk_dotDot _ _ hd, walk_dotDot _ _ hd]
        exact walk_append_congr hr hr' h n (fs.above dir) names
      rw [walk_name n hd h1 h2 (by simp [hr]), walk_name n hd h1 h2 (by simp [hr'])]
      split
      · rfl
      · split
        · simp [hr, hr']
        · rename_i j hj
          split
          · rename_i target hk
            cases n with
            | zero => rfl
            | succ n =>
                rw [asks_append _ _ hr, asks_append _ _ hr', ← List.append_assoc,
                  ← List.append_assoc]
                exact walk_append_congr hr hr' h n _ _
          · exact walk_append_congr hr hr' h n j names
termination_by (n, names.length)

/-- A name `.` that does not come last is passed. -/
theorem walk_dot_cons {rest : List Name} (hr : rest ≠ []) (n : Nat) (dir : NodeId) :
    fs.walk intent n dir (Path.dot :: rest) slash = fs.walk intent n dir rest slash := by
  obtain ⟨name, rest, rfl⟩ := List.exists_cons_of_ne_nil hr
  cases hd : fs.isDirectory dir with
  | false => rw [walk_of_not_directory _ _ hd, walk_of_not_directory _ _ hd]
  | true => rw [walk_dot _ _ hd]

/-- **Names that lead nowhere do not matter ahead of others.** -/
theorem walk_undotted {rest : List Name} (hr : rest ≠ []) (names : List Name) (n : Nat)
    (dir : NodeId) : fs.walk intent n dir (names ++ rest) slash =
      fs.walk intent n dir (undotted names ++ rest) slash := by
  induction names generalizing n dir with
  | nil => rfl
  | cons name names ih =>
      by_cases hname : name = Path.dot
      · subst hname
        rw [List.cons_append, walk_dot_cons (by simp [hr]), ih]
        rfl
      · have hkept : undotted (name :: names) = [name] ++ undotted names := by
          simp [undotted, hname]
        rw [hkept, List.append_assoc]
        exact walk_append_congr (by simp [hr]) (by simp [hr]) ih n dir [name]

end FileSystem

/-! ### Pieces -/

namespace Path

theorem split_ne_nil (a : Bytes) : split a ≠ [] := by
  obtain ⟨init, last, h, -⟩ := split_append a
  simp [h]

/-- A slash ends a piece. -/
theorem split_append_slash (a b : Bytes) : split (a ++ slash :: b) = split a ++ split b := by
  induction a with
  | nil => simp [split]
  | cons x a ih =>
      rw [List.cons_append, split, split, ih]
      split
      · rfl
      · obtain ⟨piece, more, h⟩ := List.exists_cons_of_ne_nil (split_ne_nil a)
        rw [h]
        rfl

theorem slash_notMem_of_mem_split {a : Bytes} {piece : Name} (h : piece ∈ split a) :
    slash ∉ piece := by
  induction a generalizing piece with
  | nil => simp_all [split]
  | cons x a ih =>
      obtain ⟨first, more, hs⟩ := List.exists_cons_of_ne_nil (split_ne_nil a)
      rw [split, hs] at h
      rw [hs] at ih
      split at h
      · rcases List.mem_cons.mp h with rfl | h
        · exact List.not_mem_nil
        · exact ih h
      · rename_i hx
        rcases List.mem_cons.mp h with rfl | h
        · rw [List.mem_cons, not_or]
          exact ⟨Ne.symm hx, ih List.mem_cons_self⟩
        · exact ih (List.mem_cons_of_mem _ h)

theorem unsplit_cons {piece : Name} {more : List Name} (h : more ≠ []) :
    unsplit (piece :: more) = piece ++ slash :: unsplit more := by
  obtain ⟨next, more, rfl⟩ := List.exists_cons_of_ne_nil h
  rfl

/-- A path is its pieces with slashes between them. -/
theorem unsplit_split (a : Bytes) : unsplit (split a) = a := by
  induction a with
  | nil => rfl
  | cons x a ih =>
      rw [split]
      split
      · rename_i hx
        rw [unsplit_cons (split_ne_nil a), ih, hx]
        rfl
      · obtain ⟨piece, more, h⟩ := List.exists_cons_of_ne_nil (split_ne_nil a)
        rw [h] at ih ⊢
        rw [← ih]
        cases more <;> rfl

theorem split_unsplit {ps : List Name} (hne : ps ≠ []) (h : ∀ piece ∈ ps, slash ∉ piece) :
    split (unsplit ps) = ps := by
  induction ps with
  | nil => exact absurd rfl hne
  | cons piece ps ih =>
      have hpiece : split piece = [piece] := split_of_notMem (h piece List.mem_cons_self)
      by_cases hps : ps = []
      · rw [hps]
        exact hpiece
      · rw [unsplit_cons hps, split_append_slash, hpiece,
          ih hps fun q hq => h q (List.mem_cons_of_mem _ hq)]
        rfl

theorem unsplit_mono {ps qs : List Name} (h : ps <+: qs) : unsplit ps <+: unsplit qs := by
  induction ps generalizing qs with
  | nil => exact List.nil_prefix
  | cons piece ps ih =>
      obtain ⟨rest, rfl⟩ := h
      by_cases hps : ps = []
      · subst hps
        cases rest with
        | nil => exact List.prefix_rfl
        | cons next rest => exact List.prefix_append ..
      · rw [List.cons_append, unsplit_cons hps, unsplit_cons (by simp [hps]),
          List.prefix_append_right_inj, List.cons_prefix_cons]
        exact ⟨rfl, ih (List.prefix_append ..)⟩

/-- The piece leads nowhere. -/
def isIdle (piece : Name) : Bool := piece.isEmpty || piece == dot

theorem trimEnd_cons (absolute : Bool) (first : Name) (more : List Name) :
    trimEnd absolute (first :: more) =
      if (more.rdropWhile isIdle).isEmpty && (first.isEmpty || (absolute && first == dot)) then []
      else first :: more.rdropWhile isIdle := rfl

theorem prefix_trimEnd (absolute : Bool) (ps : List Name) : trimEnd absolute ps <+: ps := by
  cases ps with
  | nil => exact List.prefix_rfl
  | cons first more =>
      rw [trimEnd_cons]
      split
      · exact List.nil_prefix
      · exact List.cons_prefix_cons.mpr ⟨rfl, List.rdropWhile_prefix ..⟩

/-- Only pieces that lead nowhere are taken away. -/
theorem filter_trimEnd (absolute : Bool) (ps : List Name) :
    (trimEnd absolute ps).filter (!isIdle ·) = ps.filter (!isIdle ·) := by
  cases ps with
  | nil => rfl
  | cons first more =>
      have hmore : more.filter (!isIdle ·) = (more.rdropWhile isIdle).filter (!isIdle ·) := by
        have htaken : (more.rtakeWhile isIdle).filter (!isIdle ·) = [] := by
          rw [List.filter_eq_nil_iff]
          intro piece hpiece
          simp [List.mem_rtakeWhile_imp hpiece]
        calc more.filter (!isIdle ·)
            = (more.rdropWhile isIdle ++ more.rtakeWhile isIdle).filter (!isIdle ·) := by
              rw [List.rdropWhile_append_rtakeWhile]
          _ = (more.rdropWhile isIdle).filter (!isIdle ·) := by
              rw [List.filter_append, htaken, List.append_nil]
      rw [trimEnd_cons]
      split
      · rename_i h
        simp only [Bool.and_eq_true, List.isEmpty_iff] at h
        have hfirst : isIdle first = true := by
          rcases Bool.or_eq_true _ _ |>.mp h.2 with h | h
          · simp [isIdle, h]
          · simp_all [isIdle]
        rw [List.filter_cons_of_neg (by simp [hfirst]), hmore, h.1]
      · rw [List.filter_cons, List.filter_cons, hmore]

/-- A last piece that leads somewhere stays. -/
theorem trimEnd_concat (absolute : Bool) (init : List Name) {last : Name}
    (h : isIdle last = false) : trimEnd absolute (init ++ [last]) = init ++ [last] := by
  cases init with
  | nil =>
      rw [isIdle, Bool.or_eq_false_iff] at h
      rw [List.nil_append, trimEnd_cons, if_neg (by simp [h.1, h.2])]
      rfl
  | cons first init =>
      rw [List.cons_append, trimEnd_cons, List.rdropWhile_concat_neg _ _ _ (by simp [h]), if_neg]
      simp

/-! ### Names of relatives -/

/-- The path with `f` in the place of what stands behind its last slash. -/
def withLast (p f : Path) : Path := ⟨p.bytes.rdropWhile (· ≠ slash) ++ f.bytes⟩

theorem names_append_slash (a b : Bytes) :
    names ⟨a ++ slash :: b⟩ = names ⟨a⟩ ++ names ⟨b⟩ := by
  unfold names
  rw [split_append_slash, List.filter_append]

theorem names_nil : names ⟨[]⟩ = [] := rfl

/-- What is put between a directory and a relative path. -/
def joint (base : Path) : Bytes := if base.bytes.isEmpty || base.endsInSlash then [] else [slash]

variable {base f p : Path}

theorem join_bytes (base : Path) (hf : f.isAbsolute = false) :
    (base.join f).bytes = base.bytes ++ base.joint ++ f.bytes := by
  by_cases h : (base.bytes.isEmpty || base.endsInSlash) = true <;> simp [join, joint, hf, h]

theorem names_join (hf : f.isAbsolute = false) : (base.join f).names = base.names ++ f.names := by
  unfold join
  rw [hf]
  split
  · rename_i h
    cases h
  split
  · rename_i h
    rcases Bool.or_eq_true _ _ |>.mp h with h | h
    · obtain rfl : base = ⟨[]⟩ := by
        cases base
        simpa using h
      rfl
    · obtain ⟨a, ha⟩ : ∃ a, base.bytes = a ++ [slash] := by
        simpa [endsInSlash, List.getLast?_eq_some_iff] using h
      have hbase : base.names = names ⟨a⟩ := by
        have := names_append_slash a []
        rwa [← ha, names_nil, List.append_nil] at this
      rw [hbase, ha, List.append_assoc]
      exact names_append_slash a f.bytes
  · exact names_append_slash base.bytes f.bytes

theorem isAbsolute_join (hf : f.isAbsolute = false) :
    (base.join f).isAbsolute = base.isAbsolute := by
  have hbytes := join_bytes base hf
  unfold isAbsolute at *
  rw [hbytes]
  cases hb : base.bytes with
  | nil => simpa [joint, hb] using hf
  | cons b rest => rfl

theorem names_ne_nil (hf : f.isAbsolute = false) (hne : f.bytes ≠ []) : f.names ≠ [] := by
  obtain ⟨b, rest, hb⟩ := List.exists_cons_of_ne_nil hne
  have hslash : b ≠ slash := by simpa [isAbsolute, hb] using hf
  obtain ⟨piece, more, hs⟩ := List.exists_cons_of_ne_nil (split_ne_nil rest)
  unfold names
  rw [hb, split, if_neg hslash, hs]
  simp

theorem endsInSlash_append {a : Bytes} (h : p.bytes = a ++ f.bytes) (hne : f.bytes ≠ []) :
    p.endsInSlash = f.endsInSlash := by
  unfold endsInSlash
  rw [h, List.getLast?_append, List.getLast?_eq_some_getLast hne]
  rfl

/-! ### Directories -/

/-- What is ahead of the first piece. -/
def root (p : Path) : Bytes := if p.isAbsolute then [slash] else []

/-- The path without the pieces at its end that lead nowhere. -/
def trimmed (p : Path) : Path := ⟨p.root ++ unsplit (trimEnd p.isAbsolute p.pieces)⟩

theorem root_append_pieces (p : Path) : p.root ++ unsplit p.pieces = p.bytes := by
  unfold root pieces
  rw [unsplit_split]
  split
  · rename_i h
    rw [isAbsolute, decide_eq_true_eq, List.head?_eq_some_iff] at h
    obtain ⟨rest, hrest⟩ := h
    rw [hrest]
    rfl
  · rfl

theorem prefix_trimmed (p : Path) : p.trimmed.bytes <+: p.bytes := by
  rw [trimmed, ← root_append_pieces p, List.prefix_append_right_inj]
  exact unsplit_mono (prefix_trimEnd ..)

theorem isAbsolute_trimmed (p : Path) : p.trimmed.isAbsolute = p.isAbsolute := by
  cases h : p.isAbsolute with
  | true =>
      have hroot : p.root = [slash] := by simp [root, h]
      simp [isAbsolute, trimmed, hroot]
  | false =>
      obtain ⟨rest, hrest⟩ := prefix_trimmed p
      unfold isAbsolute at *
      rw [← hrest] at h
      cases hb : p.trimmed.bytes with
      | nil => rfl
      | cons b more => simpa [hb] using h

theorem undotted_names (p : Path) : undotted p.names = (split p.bytes).filter (!isIdle ·) := by
  unfold undotted names
  rw [List.filter_filter]
  apply List.filter_congr
  intro piece _
  by_cases h : piece = dot <;> simp [isIdle, h]

/-- The pieces that lead somewhere are read off the path and its pieces alike. -/
theorem filter_split_root (p : Path) {ps : List Name} (h : ∀ piece ∈ ps, slash ∉ piece) :
    (split (p.root ++ unsplit ps)).filter (!isIdle ·) = ps.filter (!isIdle ·) := by
  have hps : (split (unsplit ps)).filter (!isIdle ·) = ps.filter (!isIdle ·) := by
    by_cases hne : ps = []
    · subst hne
      rfl
    · rw [split_unsplit hne h]
  unfold root
  split
  · rw [← hps]
    have := split_append_slash [] (unsplit ps)
    rw [List.nil_append] at this
    rw [List.singleton_append, this, List.filter_append]
    rfl
  · exact hps

theorem undotted_names_trimmed (p : Path) : undotted p.trimmed.names = undotted p.names := by
  have hpieces : ∀ piece ∈ p.pieces, slash ∉ piece := fun _ => slash_notMem_of_mem_split
  have htrimmed : ∀ piece ∈ trimEnd p.isAbsolute p.pieces, slash ∉ piece :=
    fun piece hp => hpieces piece ((prefix_trimEnd ..).subset hp)
  rw [undotted_names, undotted_names, trimmed, filter_split_root p htrimmed, filter_trimEnd,
    ← filter_split_root p hpieces, root_append_pieces]

theorem parent?_eq {p : Path} {init : List Name} {last : Name} (hp : p.pieces = init ++ [last])
    (hlast : isIdle last = false) :
    p.parent? = some ⟨p.root ++ unsplit (trimEnd p.isAbsolute init)⟩ := by
  unfold parent? root
  rw [hp, trimEnd_concat _ _ hlast]
  cases h : init ++ [last] with
  | nil => simp at h
  | cons first more =>
      simp only [← h, List.dropLast_concat]
      split <;> rfl

/-- What stands ahead of the last slash of a path, and what stands behind it. -/
theorem exists_last (p : Path) : ∃ last, slash ∉ last ∧
    ((p.bytes = last ∧ ∀ f, p.withLast f = f) ∨
      ∃ d : Path, p.bytes = d.bytes ++ slash :: last ∧
        ∀ f, p.withLast f = ⟨d.bytes ++ slash :: f.bytes⟩) := by
  have hsplit : p.bytes.rdropWhile (· ≠ slash) ++ p.bytes.rtakeWhile (· ≠ slash) = p.bytes :=
    List.rdropWhile_append_rtakeWhile
  refine ⟨p.bytes.rtakeWhile (· ≠ slash), ?_, ?_⟩
  · intro hmem
    simpa using List.mem_rtakeWhile_imp hmem
  · by_cases hahead : p.bytes.rdropWhile (· ≠ slash) = []
    · left
      refine ⟨?_, fun f => ?_⟩
      · rw [hahead] at hsplit
        exact hsplit.symm
      · rw [withLast, hahead]
        rfl
    · right
      have hlast := List.rdropWhile_last_not (· ≠ slash) p.bytes hahead
      rw [decide_eq_true_eq, not_not] at hlast
      have hends := List.dropLast_concat_getLast hahead
      rw [hlast] at hends
      refine ⟨⟨(p.bytes.rdropWhile (· ≠ slash)).dropLast⟩, ?_, fun f => ?_⟩
      · conv_lhs => rw [← hsplit, ← hends]
        simp
      · rw [withLast, ← hends]
        simp

/-- What stands behind the last slash is the last name, if anything does. -/
theorem isIdle_last {c : Path} {last : Name} (hlast : slash ∉ last)
    (hc : c.bytes = last ∨ ∃ d : Path, c.bytes = d.bytes ++ slash :: last)
    (hname : ∃ init name, c.names = init ++ [name] ∧ name ≠ dot) (hs : c.endsInSlash = false) :
    isIdle last = false := by
  obtain ⟨init, name, hnames, hdot⟩ := hname
  have hne : last ≠ [] := by
    rintro rfl
    obtain hbytes | ⟨d, hbytes⟩ := hc
    · simp [names, hbytes, split] at hnames
    · simp [endsInSlash, hbytes] at hs
  have hown : names ⟨last⟩ = [last] := by simp [names, split_of_notMem hlast, hne]
  obtain ⟨init', hinit⟩ : ∃ init', c.names = init' ++ [last] := by
    obtain hbytes | ⟨d, hbytes⟩ := hc
    · exact ⟨[], by rw [← hown, ← hbytes]; rfl⟩
    · refine ⟨d.names, ?_⟩
      have := names_append_slash d.bytes last
      rwa [← hbytes, hown] at this
  obtain ⟨-, hsame⟩ := List.append_inj' (hnames.symm.trans hinit) rfl
  cases hsame
  simp [isIdle, hne, hdot]

/-- The parent of a path with a name: nothing, the root, or what is ahead of the last slash without
the pieces that lead nowhere. -/
theorem parent?_cases {c : Path} (hname : ∃ init name, c.names = init ++ [name] ∧ name ≠ dot)
    (hs : c.endsInSlash = false) :
    (c.parent? = some ⟨[]⟩ ∧ ∀ f, c.withLast f = f) ∨
    (c.parent? = some ⟨[slash]⟩ ∧ ∀ f, c.withLast f = ⟨slash :: f.bytes⟩) ∨
    ∃ d : Path, d.bytes ≠ [] ∧ d.bytes <+: c.bytes ∧ c.parent? = some d.trimmed ∧
      ∀ f, c.withLast f = ⟨d.bytes ++ slash :: f.bytes⟩ := by
  obtain ⟨last, hlast, hc⟩ := exists_last c
  have hidle : isIdle last = false :=
    isIdle_last hlast (hc.imp And.left fun ⟨d, h⟩ => ⟨d, h.1⟩) hname hs
  have hpiece : split last = [last] := split_of_notMem hlast
  obtain ⟨hbytes, hwith⟩ | ⟨d, hbytes, hwith⟩ := hc
  · left
    have hrel : c.isAbsolute = false := by
      rw [isAbsolute, decide_eq_false_iff_not, hbytes]
      exact fun h => hlast (List.mem_of_head? h)
    have hpieces : c.pieces = [] ++ [last] := by simp [pieces, hrel, hbytes, hpiece]
    refine ⟨?_, hwith⟩
    rw [parent?_eq hpieces hidle, root, hrel]
    rfl
  · right
    by_cases hd : d.bytes = []
    · left
      rw [hd, List.nil_append] at hbytes
      have habs : c.isAbsolute = true := by simp [isAbsolute, hbytes]
      have hpieces : c.pieces = [] ++ [last] := by simp [pieces, habs, hbytes, hpiece]
      constructor
      · rw [parent?_eq hpieces hidle, root, habs]
        rfl
      · intro f
        rw [hwith, hd]
        rfl
    · right
      obtain ⟨b, rest, hb⟩ := List.exists_cons_of_ne_nil hd
      have habs : c.isAbsolute = d.isAbsolute := by simp [isAbsolute, hbytes, hb]
      have hpieces : c.pieces = d.pieces ++ [last] := by
        unfold pieces
        rw [habs, hbytes, ← hpiece]
        split
        · rw [List.tail_append_of_ne_nil hd, split_append_slash]
        · rw [split_append_slash]
      refine ⟨d, hd, ?_, ?_, hwith⟩
      · rw [hbytes]
        exact List.prefix_append ..
      · rw [parent?_eq hpieces hidle, trimmed, root, root, habs]

/-! ### Shorter spellings -/

/-- `p` is spelled as `q` is, up to slashes and names that lead nowhere, of which `q` may have more
ahead of the last names. -/
structure Tidies (p q : Path) : Prop where
  isAbsolute : p.isAbsolute = q.isAbsolute
  endsInSlash : p.endsInSlash = q.endsInSlash
  names : ∃ xs ys rest, rest ≠ [] ∧ p.names = xs ++ rest ∧ q.names = ys ++ rest ∧
    undotted xs = undotted ys
  zero : 0 ∈ p.bytes ↔ 0 ∈ q.bytes
  length_le : p.bytes.length ≤ q.bytes.length

theorem Tidies.refl (h : p.names ≠ []) : p.Tidies p :=
  ⟨rfl, rfl, ⟨[], [], p.names, h, rfl, rfl, rfl⟩, Iff.rfl, Nat.le_refl _⟩

/-- A relative path is read from a directory as from its trimmed spelling. -/
theorem tidies_trimmed {d : Path} (hd : d.bytes ≠ []) (h0 : 0 ∉ d.bytes)
    (hf : f.isAbsolute = false) (hne : f.bytes ≠ []) :
    Tidies (d.trimmed.join f) ⟨d.bytes ++ slash :: f.bytes⟩ := by
  have hbytes := join_bytes d.trimmed hf
  have hjoint : ∀ b ∈ d.trimmed.joint, b = slash := by
    unfold joint
    split <;> simp
  have hshort : d.trimmed.joint.length ≤ 1 := by
    unfold joint
    split <;> simp
  constructor
  · rw [isAbsolute_join hf, isAbsolute_trimmed]
    obtain ⟨b, rest, hb⟩ := List.exists_cons_of_ne_nil hd
    simp [isAbsolute, hb]
  · rw [endsInSlash_append hbytes hne,
      endsInSlash_append (List.append_cons d.bytes slash f.bytes) hne]
  · refine ⟨d.trimmed.names, d.names, f.names, names_ne_nil hf hne, names_join hf, ?_,
      undotted_names_trimmed d⟩
    exact names_append_slash d.bytes f.bytes
  · have htrim : 0 ∉ d.trimmed.bytes := fun h => h0 ((prefix_trimmed d).subset h)
    have hzero : 0 ∉ d.trimmed.joint := fun h => absurd (hjoint 0 h) (by decide)
    rw [hbytes]
    simp [htrim, hzero, h0, slash]
  · have hle := (prefix_trimmed d).length_le
    rw [hbytes]
    simp only [List.length_append, List.length_cons]
    omega

/-- **A relative path that is read from the parent of a path is a shorter spelling of the path with
its last name replaced.** -/
theorem tidies_join_parent {c f : Path} (h0 : 0 ∉ c.bytes)
    (hname : ∃ init name, c.names = init ++ [name] ∧ name ≠ dot) (hs : c.endsInSlash = false)
    (hf : f.isAbsolute = false) (hne : f.bytes ≠ []) :
    ∃ base, c.parent? = some base ∧ Tidies (base.join f) (c.withLast f) := by
  obtain ⟨hparent, hwith⟩ | ⟨hparent, hwith⟩ | ⟨d, hd, hinside, hparent, hwith⟩ :=
    parent?_cases hname hs
  · have hjoin : (⟨[]⟩ : Path).join f = f := by simp [join, hf]
    refine ⟨_, hparent, ?_⟩
    rw [hwith, hjoin]
    exact .refl (names_ne_nil hf hne)
  · have hjoin : (⟨[slash]⟩ : Path).join f = ⟨slash :: f.bytes⟩ := by
      simp [join, hf, endsInSlash]
    refine ⟨_, hparent, ?_⟩
    rw [hwith, hjoin]
    exact .refl (by rw [← hjoin, names_join hf]; simp [names_ne_nil hf hne])
  · refine ⟨_, hparent, ?_⟩
    rw [hwith]
    exact tidies_trimmed hd (fun h => h0 (hinside.subset h)) hf hne

/-! ### Looking up -/

theorem Tidies.ne_nil {p q : Path} (h : p.Tidies q) : p.bytes ≠ [] ∧ q.bytes ≠ [] := by
  obtain ⟨xs, ys, rest, hrest, hp, hq, -⟩ := h.names
  constructor
  · intro hnil
    simp [Path.names, hnil, split, hrest] at hp
  · intro hnil
    simp [Path.names, hnil, split, hrest] at hq

/-- The shorter spelling is admitted if the longer one is. -/
theorem Tidies.admission {p q : Path} (h : p.Tidies q)
    (hlen : q.bytes.length ≤ maxPath ∨ maxPath < p.bytes.length) : p.admit = q.admit := by
  obtain ⟨hp, hq⟩ := h.ne_nil
  have hzero : p.bytes.contains 0 = q.bytes.contains 0 := by
    simp [h.zero]
  have hlong : p.bytes.length > maxPath ↔ q.bytes.length > maxPath := by
    have := h.length_le
    omega
  unfold Path.admit
  simp only [hzero, hlong, List.isEmpty_eq_false_iff.mpr hp, List.isEmpty_eq_false_iff.mpr hq]

variable (fs : FileSystem)

/-- **The two spellings lead to the same**, -/
theorem Tidies.find {p q : Path} (h : p.Tidies q) (intent : Intent) :
    fs.find intent p = fs.find intent q := by
  obtain ⟨xs, ys, rest, hrest, hp, hq, hsame⟩ := h.names
  have hstart : fs.start p = fs.start q := by
    unfold FileSystem.start
    rw [h.isAbsolute]
  unfold FileSystem.find
  rw [hp, hq, hstart, h.endsInSlash, FileSystem.walk_undotted hrest, hsame,
    ← FileSystem.walk_undotted hrest]

/-- and that can be looked up, if the longer one is not too long. -/
theorem Tidies.resolve {p q : Path} (h : p.Tidies q)
    (hlen : q.bytes.length ≤ maxPath ∨ maxPath < p.bytes.length) :
    fs.resolve p = fs.resolve q := by
  unfold FileSystem.resolve
  rw [h.admission hlen, h.find fs]

theorem text_congr {fs : FileSystem} {p q : Path} (h : fs.resolve p = fs.resolve q) :
    fs.text p = fs.text q := by
  unfold FileSystem.text FileSystem.contents
  rw [h]

end Path

end StubInsertion
