import Mathlib.Tactic.SplitIfs
import StubInsertion.Block.Default
import StubInsertion.Proofs.Source.Lines
import StubInsertion.Source.Session

/-! # Marked texts stay marked

The marker of a block holds no newline, so a text is marked if and only if the marker stands in it
(`Block.isMarked_mark_iff`).  A splice cuts a text between two lines and never inside a marker:

* **Steps.** `isMarked_splice` and `Step.isMarked_run` say that no step of a session takes a marker
  away, and `Step.isMarked_run_plan` that a plan leaves one behind.
* **Sessions.** `textAfter` is the text after some steps.  `isMarked_textAfter` is the invariant of
  a run, and `session_marked_from_plan` says what it means for the answers. -/

namespace StubInsertion

/-! ### The marker of a block -/

/-- A character of ASCII is a byte that occurs in no other character. -/
theorem eq_of_mem_utf8EncodeChar {c d : Char} (hd : d.toNat < 0x80)
    (h : UInt8.ofNat d.toNat ∈ String.utf8EncodeChar c) : c = d := by
  have key : c.val.toNat = d.val.toNat := by
    change d.val.toNat < 0x80 at hd
    change UInt8.ofNat d.val.toNat ∈ _ at h
    unfold String.utf8EncodeChar at h
    simp only [] at h
    split_ifs at h <;>
      simp only [List.mem_cons, List.not_mem_nil, or_false, ← UInt8.toNat_inj,
        UInt8.toNat_ofNat'] at h <;> omega
  exact Char.ext (UInt32.toNat_inj.mp key)

theorem ascii_mem_utf8 {s : String} {d : Char} (hd : d.toNat < 0x80) :
    UInt8.ofNat d.toNat ∈ utf8 s ↔ d ∈ s.toList := by
  unfold utf8
  rw [List.mem_flatMap]
  constructor
  · rintro ⟨c, hc, h⟩
    rwa [← eq_of_mem_utf8EncodeChar hd h]
  · intro h
    refine ⟨d, h, ?_⟩
    rw [String.utf8EncodeChar_eq_singleton (by rw [Char.utf8Size_eq_one_iff]; exact Nat.le_of_lt_succ hd)]
    exact List.mem_singleton_self _

theorem newline_mem_utf8EncodeChar {c : Char} (h : newline ∈ String.utf8EncodeChar c) :
    c = '\n' := eq_of_mem_utf8EncodeChar (by decide) h

theorem newline_mem_utf8 {s : String} : newline ∈ utf8 s ↔ '\n' ∈ s.toList :=
  ascii_mem_utf8 (d := '\n') (by decide)

namespace Block

variable (b : Block)

theorem newline_notMem_mark : newline ∉ b.mark := by
  intro hmem
  have h := b.marker_one_line
  rw [hasLineBreak, List.any_eq_false] at h
  exact h '\n' (newline_mem_utf8.mp hmem) (by decide)

theorem mark_infix_bytes : b.mark <:+: b.bytes := (Bytes.occursIn_iff ..).mp b.marker_in_text

/-- A text is marked if and only if the marker stands in it. -/
theorem isMarked_mark_iff {text : Bytes} : Source.isMarked text b.mark = true ↔ b.mark <:+: text := by
  rw [Source.isMarked_iff_occurs]
  exact and_iff_left fun h => b.newline_notMem_mark (List.dropLast_subset _ h)

/-- A short block: the letter `M` on a line of its own. -/
def short : Block := ⟨"M", "M\n", by decide +kernel, by decide +kernel, by decide +kernel⟩

end Block

namespace Source

/-! ### Steps -/

/-- A splice keeps every line whole. -/
theorem infix_splice_of_mem {ls : List Bytes} {line : Bytes} (h : line ∈ ls) (n : Nat)
    (block : Bytes) : line <:+: splice ls n block := by
  unfold splice
  rw [← List.take_append_drop (n - 1) ls] at h
  rcases List.mem_append.mp h with h | h
  · have := List.infix_of_mem_flatten h
    simp only [List.append_assoc]
    exact List.infix_append_of_infix_left this
  · exact List.infix_append_of_infix_right (List.infix_of_mem_flatten h)

theorem isMarked_splice {text marker : Bytes} (h : isMarked text marker = true) (n : Nat)
    (block : Bytes) : isMarked (splice (lines text) n block) marker = true := by
  rw [isMarked_iff_occurs]
  refine ⟨?_, (isMarked_iff_occurs.mp h).2⟩
  rcases (isMarked_iff ..).mp h with rfl | ⟨line, hmem, hin⟩
  · exact List.nil_infix
  · exact hin.trans (infix_splice_of_mem hmem n block)

theorem infix_splice (ls : List Bytes) (n : Nat) (block : Bytes) :
    block <:+: splice ls n block := List.infix_append ..

/-- What a plan inserts marks the text. -/
theorem isMarked_of_plan {text contents : Bytes} {b : Block} {line : Nat}
    (h : plan text b = .insert line contents) : isMarked contents b.mark = true := by
  unfold plan at h
  split at h
  · cases h
  · cases h
    rw [b.isMarked_mark_iff]
    exact b.mark_infix_bytes.trans (infix_splice ..)

theorem plan_eq_alreadyMarked_iff {text : Bytes} {b : Block} :
    plan text b = .alreadyMarked ↔ isMarked text b.mark = true := by
  unfold plan
  split <;> simp_all

/-- No step takes a marker away. -/
theorem Step.isMarked_run {text marker : Bytes} (h : isMarked text marker = true) (step : Step) :
    isMarked (step.run text).2 marker = true := by
  cases step with
  | splice block line => exact isMarked_splice h _ block
  | plan block =>
      cases block with
      | error reason => exact h
      | ok b =>
          simp only [Step.run]
          cases hp : Source.plan text b with
          | alreadyMarked => exact h
          | insert line contents =>
              unfold Source.plan at hp
              split at hp
              · cases hp
              · cases hp
                exact isMarked_splice h _ _

/-- A plan leaves the marker of its block, whatever it answers. -/
theorem Step.isMarked_run_plan (text : Bytes) (b : Block) :
    isMarked ((Step.plan (.ok b)).run text).2 b.mark = true := by
  simp only [Step.run]
  cases h : Source.plan text b with
  | alreadyMarked => exact plan_eq_alreadyMarked_iff.mp h
  | insert line contents => exact isMarked_of_plan h

/-- On a marked text a plan changes nothing. -/
theorem Step.run_plan_of_isMarked {text : Bytes} {b : Block} (h : isMarked text b.mark = true) :
    (Step.plan (.ok b)).run text = (.planned .alreadyMarked, text) := by
  simp only [Step.run, plan_eq_alreadyMarked_iff.mpr h]

/-! ### Sessions -/

/-- The text after some steps. -/
def textAfter (text : Bytes) (steps : List Step) : Bytes :=
  steps.foldl (fun text step => (step.run text).2) text

theorem textAfter_take_succ {steps : List Step} {i : Nat} {step : Step} (h : steps[i]? = some step)
    (text : Bytes) :
    textAfter text (steps.take (i + 1)) = (step.run (textAfter text (steps.take i))).2 := by
  simp [textAfter, List.take_add_one, h]

/-- Every answer is that of a step on the text after the steps ahead of it. -/
theorem session_getElem? (text : Bytes) (steps : List Step) (i : Nat) :
    (session text steps)[i]? =
      steps[i]?.map fun step => step.run (textAfter text (steps.take i)) := by
  induction steps generalizing text i with
  | nil => rfl
  | cons step steps ih =>
      cases i with
      | zero => rfl
      | succ i => exact ih (step.run text).2 i

/-- The invariant of a session. -/
theorem isMarked_textAfter {text marker : Bytes} (h : isMarked text marker = true)
    (steps : List Step) : isMarked (textAfter text steps) marker = true := by
  induction steps generalizing text with
  | nil => exact h
  | cons step steps ih => exact ih (step.isMarked_run h)

/-- The text stays marked from the plan on. -/
theorem isMarked_after_plan {steps : List Step} {i j : Nat} {b : Block} (text : Bytes)
    (hi : steps[i]? = some (.plan (.ok b))) (hij : i ≤ j) :
    isMarked (textAfter text (steps.take (j + 1))) b.mark = true := by
  have hsplit : steps.take (j + 1) = steps.take (i + 1) ++ (steps.take (j + 1)).drop (i + 1) := by
    have := List.take_append_drop (i + 1) (steps.take (j + 1))
    rw [List.take_take, Nat.min_eq_left (by omega)] at this
    exact this.symm
  rw [hsplit, textAfter, List.foldl_append]
  apply isMarked_textAfter
  show isMarked (textAfter text (steps.take (i + 1))) b.mark = true
  rw [textAfter_take_succ hi]
  exact Step.isMarked_run_plan ..

/-- **At most one insertion for each marker.**  Once a session has planned with a block, every later
text carries the marker, and every later plan with the same marker changes nothing.  So planning
again on what a plan gave changes nothing. -/
theorem session_marked_from_plan (text : Bytes) (steps : List Step) (i : Nat) (b : Block)
    (hi : steps[i]? = some (.plan (.ok b))) :
    (∀ j result, i ≤ j → (session text steps)[j]? = some result →
      isMarked result.2 b.mark = true) ∧
    (∀ j (b' : Block), i ≤ j → steps[j + 1]? = some (.plan (.ok b')) → b'.marker = b.marker →
      ∃ answer state, (session text steps)[j]? = some (answer, state) ∧
        (session text steps)[j + 1]? = some (.planned .alreadyMarked, state)) ∧
    ∀ t line contents, plan t b = .insert line contents → plan contents b = .alreadyMarked := by
  refine ⟨?_, ?_, ?_⟩
  · intro j result hij hj
    rw [session_getElem?, Option.map_eq_some_iff] at hj
    obtain ⟨step, hstep, rfl⟩ := hj
    rw [← textAfter_take_succ hstep]
    exact isMarked_after_plan text hi hij
  · intro j b' hij hj hmarker
    have hlt : j < steps.length := by
      have := (List.getElem?_eq_some_iff.mp hj).1
      omega
    have hstep : steps[j]? = some steps[j] := List.getElem?_eq_getElem hlt
    have hmark : isMarked (textAfter text (steps.take (j + 1))) b'.mark = true := by
      have := isMarked_after_plan text hi hij
      rwa [Block.mark, hmarker]
    refine ⟨(steps[j].run (textAfter text (steps.take j))).1,
      textAfter text (steps.take (j + 1)), ?_, ?_⟩
    · rw [session_getElem?, hstep, textAfter_take_succ hstep]
      rfl
    · rw [session_getElem?, hj, Option.map_some, Step.run_plan_of_isMarked hmark]
  · intro t line contents h
    exact plan_eq_alreadyMarked_iff.mpr (isMarked_of_plan h)

/-- The built-in block goes into an empty text; a byte spliced into the block leaves the text
marked. -/
theorem session_marked_from_default_plan :
    let steps : List Step :=
      [.plan (.ok Block.default), .splice [0x61] (some 3), .plan (.ok Block.default)]
    steps[0]? = some (.plan (.ok Block.default)) ∧
      ∃ answer state, (session [] steps)[1]? = some (answer, state) ∧
        (session [] steps)[2]? = some (.planned .alreadyMarked, state) :=
  ⟨rfl, (session_marked_from_plan [] _ 0 Block.default rfl).2.1 1 Block.default (by decide) rfl rfl⟩

end Source

end StubInsertion
