import StubInsertion.Proofs.Source.Growth
import StubInsertion.Proofs.Source.Terminators

/-! # Future imports that span lines

A future import is a statement, and a statement goes on in the next line while a bracket is open or
behind a backslash.  The lines it goes on in are read like any other lines, so the first of them that
looks like code is where the block goes.

* **Statements.** `statement` is the statement at the start of some lines, and
  `length_statementFrom_le_iff` says among which of them it ends.
* **Lines ahead of code.** A blank line or a comment opens no bracket, closes none and ends in no
  backslash (`surplus_of_spaces`, `breaksOff_of_spaces`), so only the future imports among the lines
  matter: the statement ends ahead of the block if these lines are `Settled`, or no code follows
  (`import_ends_ahead_iff`).
* **Failure.** `import_torn` is an import with a block inside. -/

namespace StubInsertion.Source

/-! ### Statements -/

/-- The line without its comment. -/
def shown (line : Bytes) : Bytes := line.takeWhile (· ≠ 0x23)

/-- How many more brackets a line opens than it closes. -/
def surplus (line : Bytes) : Int := (shown line).count 0x28 - (shown line).count 0x29

/-- How many more brackets some lines open than they close. -/
def openBrackets (ls : List Bytes) : Int := ls.foldr (surplus · + ·) 0

/-- Does the line end in a backslash, its terminator aside? -/
def breaksOff (line : Bytes) : Bool :=
  [[0x5c], [0x5c, newline], [0x5c, carriageReturn, newline]].any (·.isSuffixOf (shown line))

/-- The rest of a statement that begins with the lines' first one or, with `depth` more brackets
opened than closed, ahead of it: it goes on while brackets are open or behind a backslash. -/
def statementFrom (depth : Int) : List Bytes → List Bytes
  | [] => []
  | l :: ls =>
    l :: if 0 < depth + surplus l ∨ breaksOff l = true then statementFrom (depth + surplus l) ls
      else []

/-- The statement that begins with the first of the lines. -/
def statement (ls : List Bytes) : List Bytes := statementFrom 0 ls

@[simp] theorem openBrackets_nil : openBrackets [] = 0 := rfl

theorem openBrackets_cons (l : Bytes) (ls : List Bytes) :
    openBrackets (l :: ls) = surplus l + openBrackets ls := rfl

theorem openBrackets_append (ls ks : List Bytes) :
    openBrackets (ls ++ ks) = openBrackets ls + openBrackets ks := by
  induction ls with
  | nil => exact (Int.zero_add _).symm
  | cons l ls ih =>
      rw [List.cons_append, openBrackets_cons, openBrackets_cons, ih, Int.add_assoc]

/-- The lines up to `last` close every bracket that they open, and `last` ends in no backslash. -/
structure Ends (depth : Int) (ls mid : List Bytes) (last : Bytes) (more : List Bytes) : Prop where
  lines_eq : ls = mid ++ last :: more
  closed : depth + openBrackets (mid ++ [last]) ≤ 0
  whole : breaksOff last = false

/-- A statement ends among the first of some lines if one of them ends it, or there are no others. -/
theorem length_statementFrom_le_iff (depth : Int) (own others : List Bytes) :
    (statementFrom depth (own ++ others)).length ≤ own.length ↔
      others = [] ∨ ∃ mid last more, Ends depth own mid last more := by
  induction own generalizing depth with
  | nil =>
      cases others with
      | nil => simp [statementFrom]
      | cons l others =>
          simp only [List.nil_append, statementFrom, List.length_cons, List.length_nil]
          refine iff_of_false (by omega) ?_
          rintro (h | ⟨mid, last, more, h⟩)
          · cases h
          · exact absurd h.lines_eq (by simp)
  | cons l own ih =>
      rw [List.cons_append, statementFrom]
      split
      · rename_i hgoes
        rw [List.length_cons, List.length_cons, Nat.add_le_add_iff_right, ih]
        refine or_congr_right ⟨?_, ?_⟩
        · rintro ⟨mid, last, more, h⟩
          refine ⟨l :: mid, last, more, congrArg (l :: ·) h.lines_eq, ?_, h.whole⟩
          have := h.closed
          rw [List.cons_append, openBrackets_cons]
          omega
        · rintro ⟨mid, last, more, h⟩
          have hclosed := h.closed
          cases mid with
          | nil =>
              -- the first line does not end the statement
              obtain ⟨rfl, -⟩ := List.cons.inj h.lines_eq
              rw [List.nil_append, openBrackets_cons, openBrackets_nil] at hclosed
              rcases hgoes with hgoes | hgoes
              · omega
              · rw [h.whole] at hgoes
                cases hgoes
          | cons k mid =>
              obtain ⟨rfl, hown⟩ := List.cons.inj h.lines_eq
              rw [List.cons_append, openBrackets_cons] at hclosed
              exact ⟨mid, last, more, hown, by omega, h.whole⟩
      · rename_i hends
        rw [not_or, Bool.not_eq_true] at hends
        refine iff_of_true (by simp) (.inr ⟨[], l, own, rfl, ?_, hends.2⟩)
        rw [List.nil_append, openBrackets_cons, openBrackets_nil]
        omega

/-! ### Lines ahead of code -/

/-- A blank line or a comment shows nothing but white space. -/
theorem spaces_shown {line : Bytes} (hpre : (LineKind.of line).isPreamble = true)
    (hnot : LineKind.of line ≠ .directive) : Spaces (shown line) := by
  unfold LineKind.of at hpre hnot
  split at hnot
  · rename_i hblank
    intro b hb
    exact isBlank_iff.mp hblank b ((List.takeWhile_sublist _).subset hb)
  · split at hnot
    · rename_i hcomment
      obtain ⟨w, rest, hw, rfl⟩ := isComment_iff.mp hcomment
      have hw' : ∀ b ∈ w, decide (b ≠ 0x23) = true := by
        intro b hb
        refine decide_eq_true ?_
        rintro rfl
        exact absurd (hw 0x23 hb) (by decide)
      rw [shown, List.takeWhile_append_of_pos hw', List.takeWhile_cons_of_neg (by decide),
        List.append_nil]
      exact hw
    · split at hnot
      · exact absurd rfl hnot
      · simp_all [LineKind.isPreamble]

theorem surplus_of_spaces {line : Bytes} (h : Spaces (shown line)) : surplus line = 0 := by
  have hopening : (shown line).count 0x28 = 0 :=
    List.count_eq_zero.mpr fun hmem => absurd (h _ hmem) (by decide)
  have hclosing : (shown line).count 0x29 = 0 :=
    List.count_eq_zero.mpr fun hmem => absurd (h _ hmem) (by decide)
  rw [surplus, hopening, hclosing]
  rfl

theorem breaksOff_of_spaces {line : Bytes} (h : Spaces (shown line)) : breaksOff line = false := by
  have hnot : (0x5c : UInt8) ∉ shown line := fun hmem => absurd (h _ hmem) (by decide)
  unfold breaksOff
  rw [List.any_eq_false]
  intro s hs hsuffix
  -- each of the ends holds the backslash
  have hmem : (0x5c : UInt8) ∈ s := by
    simp only [List.mem_cons, List.not_mem_nil, or_false] at hs
    rcases hs with rfl | rfl | rfl <;> simp
  exact hnot ((List.isSuffixOf_iff_suffix.mp hsuffix).subset hmem)

theorem openBrackets_of_spaces {ls : List Bytes} (h : ∀ l ∈ ls, Spaces (shown l)) :
    openBrackets ls = 0 := by
  induction ls with
  | nil => rfl
  | cons l ls ih =>
      rw [openBrackets_cons, surplus_of_spaces (h l List.mem_cons_self),
        ih fun k hk => h k (List.mem_cons_of_mem l hk)]
      rfl

/-- Up to some future import every bracket is closed, and a blank line or a comment stands behind
that import if it ends in a backslash. -/
def Settled (ls : List Bytes) : Prop :=
  ∃ mid last more, ls = mid ++ last :: more ∧ LineKind.of last = .directive ∧
    openBrackets (mid ++ [last]) ≤ 0 ∧
    (breaksOff last = true → ∃ k ∈ more.head?, LineKind.of k ≠ .directive)

theorem exists_last_directive {ls : List Bytes} (h : ∃ l ∈ ls, LineKind.of l = .directive) :
    ∃ mid last more, ls = mid ++ last :: more ∧ LineKind.of last = .directive ∧
      ∀ l ∈ more, LineKind.of l ≠ .directive := by
  induction ls with
  | nil => simp at h
  | cons k ls ih =>
      by_cases hrest : ∃ l ∈ ls, LineKind.of l = .directive
      · obtain ⟨mid, last, more, rfl, hlast, hmore⟩ := ih hrest
        exact ⟨k :: mid, last, more, rfl, hlast, hmore⟩
      · have hk : LineKind.of k = .directive := by
          obtain ⟨l, hl, hkind⟩ := h
          rcases List.mem_cons.mp hl with rfl | hl
          · exact hkind
          · exact absurd ⟨l, hl, hkind⟩ hrest
        exact ⟨[], k, ls, rfl, hk, fun l hl hkind => hrest ⟨l, hl, hkind⟩⟩

/-- Lines ahead of code that end a statement of which the first one is a future import are settled:
the last future import up to the end closes what is open, as nothing behind it does. -/
theorem settled_of_ends {ls mid more : List Bytes} {last : Bytes}
    (hfirst : ∀ l ∈ ls.head?, LineKind.of l = .directive)
    (hpre : ∀ l ∈ ls, (LineKind.of l).isPreamble = true) (h : Ends 0 ls mid last more) :
    Settled ls := by
  have hsplit : ls = (mid ++ [last]) ++ more := by
    rw [h.lines_eq, List.append_assoc]
    rfl
  have hmem : ∃ l ∈ mid ++ [last], LineKind.of l = .directive := by
    cases hmid : mid ++ [last] with
    | nil => simp at hmid
    | cons k rest =>
        refine ⟨k, List.mem_cons_self, hfirst k ?_⟩
        rw [hsplit, hmid]
        rfl
  obtain ⟨head, dir, quiet, hdir, hkind, hquiet⟩ := exists_last_directive hmem
  have hshown : ∀ l ∈ quiet, Spaces (shown l) := by
    intro l hl
    refine spaces_shown (hpre l ?_) (hquiet l hl)
    rw [hsplit, hdir]
    simp [hl]
  refine ⟨head, dir, quiet ++ more, by rw [hsplit, hdir]; simp, hkind, ?_, ?_⟩
  · have hclosed := h.closed
    rw [hdir, List.append_cons, openBrackets_append, openBrackets_of_spaces hshown] at hclosed
    omega
  · intro hbreak
    cases quiet with
    | nil =>
        obtain ⟨-, hlast⟩ := List.append_inj' hdir rfl
        obtain rfl := (List.cons.inj hlast).1
        rw [h.whole] at hbreak
        cases hbreak
    | cons k quiet => exact ⟨k, rfl, hquiet k List.mem_cons_self⟩

/-- Settled lines end a statement: at the future import, or at the line behind its backslash. -/
theorem exists_ends_of_settled {ls : List Bytes}
    (hpre : ∀ l ∈ ls, (LineKind.of l).isPreamble = true) (h : Settled ls) :
    ∃ mid last more, Ends 0 ls mid last more := by
  obtain ⟨mid, last, more, heq, hkind, hclosed, hbreak⟩ := h
  cases hlast : breaksOff last with
  | false => exact ⟨mid, last, more, heq, by omega, hlast⟩
  | true =>
      obtain ⟨k, hk, hnot⟩ := hbreak hlast
      obtain ⟨rest, rfl⟩ := List.head?_eq_some_iff.mp hk
      have hshown : Spaces (shown k) := by
        refine spaces_shown (hpre k ?_) hnot
        rw [heq]
        simp
      refine ⟨mid ++ [last], k, rest, by rw [heq]; simp, ?_, breaksOff_of_spaces hshown⟩
      rw [openBrackets_append, openBrackets_cons k, surplus_of_spaces hshown, openBrackets_nil]
      omega

/-- Among lines ahead of code, of which the first is a future import, only the future imports
matter. -/
theorem exists_ends_iff {first : Bytes} {own : List Bytes}
    (hfirst : LineKind.of first = .directive)
    (hpre : ∀ l ∈ first :: own, (LineKind.of l).isPreamble = true) :
    (∃ mid last more, Ends 0 (first :: own) mid last more) ↔ Settled (first :: own) := by
  constructor
  · rintro ⟨mid, last, more, h⟩
    exact settled_of_ends (by rintro l ⟨⟩; exact hfirst) hpre h
  · exact exists_ends_of_settled hpre

/-! ### The block -/

/-- **Which future imports stay whole.**  An import that begins ahead of the block ends ahead of it
if and only if the text has no code, or the lines from the import to the block are settled. -/
theorem import_ends_ahead_iff (text contents : Bytes) (b : Block) (line : Nat)
    (h : plan text b = .insert line contents) (before : List Bytes) (first : Bytes)
    (rest : List Bytes) (hlines : lines text = before ++ first :: rest)
    (hfirst : LineKind.of first = .directive) (hahead : before.length + 1 < line) :
    before.length + (statement (first :: rest)).length < line ↔
      hasCode (lines text) = false ∨ Settled ((preamble (lines text)).drop before.length) := by
  obtain ⟨rfl, -⟩ := line_of_plan h
  unfold insertLine at hahead ⊢
  have hlen : before.length ≤ (preamble (lines text)).length := by omega
  have hrest : first :: rest = (preamble (lines text)).drop before.length ++ body (lines text) := by
    have := congrArg (List.drop before.length) (preamble_append_body (lines text))
    rw [List.drop_append_of_le_length hlen, hlines, List.drop_left] at this
    rw [hlines]
    exact this.symm
  obtain ⟨own, hown⟩ : ∃ own, (preamble (lines text)).drop before.length = first :: own := by
    cases hdrop : (preamble (lines text)).drop before.length with
    | nil =>
        have := List.drop_eq_nil_iff.mp hdrop
        omega
    | cons k own =>
        rw [hdrop] at hrest
        exact ⟨own, by rw [(List.cons.inj hrest).1]⟩
  have hpre : ∀ l ∈ first :: own, (LineKind.of l).isPreamble = true := by
    intro l hl
    rw [← hown] at hl
    exact isPreamble_of_mem_preamble (List.mem_of_mem_drop hl)
  have hlength : (first :: own).length = (preamble (lines text)).length - before.length := by
    rw [← hown, List.length_drop]
  have hends := length_statementFrom_le_iff 0 (first :: own) (body (lines text))
  rw [hasCode_eq_false_iff, hown, ← exists_ends_iff hfirst hpre, ← hends, hrest, hown, statement,
    hlength]
  omega

/-- A future import that ends in a backslash, with a comment behind it. -/
theorem import_ends_ahead_iff_comment :
    plan (utf8 "from __future__ import a \\\n# c\nimport os\n") Block.short =
        .insert 3 (utf8 "from __future__ import a \\\n# c\nM\nimport os\n") ∧
      lines (utf8 "from __future__ import a \\\n# c\nimport os\n") =
        [] ++ utf8 "from __future__ import a \\\n" :: [utf8 "# c\n", utf8 "import os\n"] ∧
      LineKind.of (utf8 "from __future__ import a \\\n") = .directive ∧
      0 + (statement [utf8 "from __future__ import a \\\n", utf8 "# c\n", utf8 "import os\n"]).length
        < 3 := by
  have hplan : plan (utf8 "from __future__ import a \\\n# c\nimport os\n") Block.short =
      .insert 3 (utf8 "from __future__ import a \\\n# c\nM\nimport os\n") := by decide +kernel
  have hlines : lines (utf8 "from __future__ import a \\\n# c\nimport os\n") =
      [] ++ utf8 "from __future__ import a \\\n" :: [utf8 "# c\n", utf8 "import os\n"] := by
    decide +kernel
  have hkind : LineKind.of (utf8 "from __future__ import a \\\n") = .directive := by decide +kernel
  have hahead : preamble (lines (utf8 "from __future__ import a \\\n# c\nimport os\n")) =
      [utf8 "from __future__ import a \\\n", utf8 "# c\n"] := by decide +kernel
  refine ⟨hplan, hlines, hkind, ?_⟩
  refine (import_ends_ahead_iff _ _ Block.short 3 hplan [] _ _ hlines hkind (by decide)).mpr
    (.inr ⟨[], _, [utf8 "# c\n"], hahead, hkind, by decide +kernel, fun _ => ?_⟩)
  exact ⟨utf8 "# c\n", rfl, by decide +kernel⟩

/-- An import whose brackets span two lines: the block goes between them, although the import begins
ahead of it. -/
theorem import_torn :
    plan (utf8 "from __future__ import (\n    division)\nimport os\n") Block.short =
        .insert 2 (utf8 "from __future__ import (\nM\n    division)\nimport os\n") ∧
      lines (utf8 "from __future__ import (\n    division)\nimport os\n") =
        [] ++ utf8 "from __future__ import (\n" :: [utf8 "    division)\n", utf8 "import os\n"] ∧
      LineKind.of (utf8 "from __future__ import (\n") = .directive ∧
      statement [utf8 "from __future__ import (\n", utf8 "    division)\n", utf8 "import os\n"] =
        [utf8 "from __future__ import (\n", utf8 "    division)\n"] ∧
      ¬ 0 + (statement
        [utf8 "from __future__ import (\n", utf8 "    division)\n", utf8 "import os\n"]).length < 2 := by
  refine ⟨by decide +kernel, by decide +kernel, by decide +kernel, by decide +kernel,
    by decide +kernel⟩

end StubInsertion.Source
