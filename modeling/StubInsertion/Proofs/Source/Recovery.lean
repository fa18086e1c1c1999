import Mathlib.Data.List.DropRight
import Mathlib.Data.List.Induction
import Mathlib.Data.List.TakeWhile
import Mathlib.Tactic.Conv
import StubInsertion.Proofs.Source.Marks

/-! # What an insertion keeps of a text

A text can be read off what the block made of it, up to one newline at the end of a text that has no
code.

* **Landmark.** The marker of the block stands nowhere ahead of the block, so the first place where
  it stands in the result tells where the block begins.  `ahead? word text` is what stands ahead of
  that place; `eq_of_append_landmark` is the law that two splits at it are one.
* **Recovery.** `Placed` says how a plan composes its result, `placed_of_plan` that it does so, and
  `texts_of_same_plan` that two texts with the same result are equal, or have no code and differ by
  one newline at the end. -/

namespace StubInsertion

namespace Bytes

/-- What stands ahead of the first place where `word` stands in the text. -/
def ahead? (word : Bytes) : Bytes → Option Bytes
  | [] => if word = [] then some [] else none
  | b :: rest => if word <+: b :: rest then some [] else (ahead? word rest).map (b :: ·)

theorem ahead?_isSome {word text : Bytes} (h : word <:+: text) : ∃ a, ahead? word text = some a := by
  induction text with
  | nil => exact ⟨[], by simp [ahead?, List.infix_nil.mp h]⟩
  | cons b rest ih =>
      unfold ahead?
      by_cases hp : word <+: b :: rest
      · exact ⟨[], if_pos hp⟩
      · obtain ⟨a, ha⟩ := ih ((List.infix_cons_iff.mp h).resolve_left hp)
        exact ⟨b :: a, by rw [if_neg hp, ha, Option.map_some]⟩

/-- What is written behind a text that holds the word does not matter. -/
theorem ahead?_append_right {word text : Bytes} (h : word <:+: text) (more : Bytes) :
    ahead? word (text ++ more) = ahead? word text := by
  induction text with
  | nil =>
      rw [List.infix_nil.mp h]
      cases more <;> simp [ahead?]
  | cons b rest ih =>
      simp only [List.cons_append, ahead?]
      by_cases hp : word <+: b :: rest
      · have hq : word <+: b :: (rest ++ more) := hp.trans (List.prefix_append _ more)
        rw [if_pos hp, if_pos hq]
      · have hr : word <:+: rest := (List.infix_cons_iff.mp h).resolve_left hp
        have hq : ¬ word <+: b :: (rest ++ more) := by
          intro hq
          -- the word is no longer than the rest, so it would end ahead of `more`
          apply hp
          have hle := hr.length_le
          exact List.prefix_of_prefix_length_le hq (List.prefix_append (b :: rest) more)
            (by rw [List.length_cons]; omega)
        rw [if_neg hp, if_neg hq, ih hr]

/-- A word without a newline does not begin in a closed text and end behind it. -/
theorem ahead?_append_left {word text : Bytes} (hin : newline ∉ word) (hc : Source.Closed text)
    (hu : ¬ word <:+: text) (more : Bytes) :
    ahead? word (text ++ more) = (ahead? word more).map (text ++ ·) := by
  induction text with
  | nil => simp
  | cons b rest ih =>
      have hp : ¬ word <+: b :: (rest ++ more) := by
        intro hp
        rcases Nat.le_total word.length (b :: rest).length with hle | hle
        · exact hu (List.prefix_of_prefix_length_le hp (List.prefix_append (b :: rest) more)
            hle).isInfix
        · have hpre : b :: rest <+: word :=
            List.prefix_of_prefix_length_le (List.prefix_append (b :: rest) more) hp hle
          have hlast : (b :: rest).getLast (by simp) = newline :=
            hc _ (List.getLast?_eq_some_getLast (by simp))
          exact hin (hpre.subset (hlast ▸ List.getLast_mem _))
      have hc' : Source.Closed rest := by
        cases rest with
        | nil => simp
        | cons c rest => exact Source.closed_cons_cons.mp hc
      have hu' : ¬ word <:+: rest := fun h => hu (List.infix_cons h)
      rw [List.cons_append, ahead?, if_neg hp, ih hc' hu', Option.map_map]
      rfl

/-- **Two splits at a landmark are one.**  The landmark holds a word that stands in neither of the
closed texts ahead of it. -/
theorem eq_of_append_landmark {word mark p q r s : Bytes} (hin : newline ∉ word)
    (hw : word <:+: mark) (hp : Source.Closed p) (hq : Source.Closed q) (up : ¬ word <:+: p)
    (uq : ¬ word <:+: q) (h : p ++ (mark ++ r) = q ++ (mark ++ s)) : p = q := by
  obtain ⟨a, ha⟩ := ahead?_isSome hw
  have hl := ahead?_append_left hin hp up (mark ++ r)
  have hr := ahead?_append_left hin hq uq (mark ++ s)
  rw [ahead?_append_right hw, ha, Option.map_some] at hl hr
  rw [h, hr] at hl
  exact (List.append_cancel_right (Option.some.inj hl)).symm

/-- Newlines at the end of a text add no word without newlines. -/
theorem infix_of_infix_newlines {word text : Bytes} (hin : newline ∉ word) {tail : Bytes}
    (ht : ∀ b ∈ tail, b = newline) (h : word <:+: text ++ tail) : word <:+: text := by
  induction tail using List.reverseRecOn with
  | nil => simpa using h
  | append_singleton tail b ih =>
      have hb : b = newline := ht b (by simp)
      subst hb
      rw [← List.append_assoc] at h
      rcases List.infix_concat_iff.mp h with h | h
      · rcases List.suffix_concat_iff.mp h with rfl | ⟨t, rfl, -⟩
        · exact List.nil_infix
        · simp at hin
      · exact ih (fun c hc => ht c (List.mem_append_left _ hc)) h

end Bytes

namespace Source

/-! ### How a plan composes its result -/

/-- The lines from the first line of code on. -/
def body (ls : List Bytes) : List Bytes := ls.dropWhile fun l => (LineKind.of l).isPreamble

theorem preamble_append_body (ls : List Bytes) : preamble ls ++ body ls = ls :=
  List.takeWhile_append_dropWhile

/-- Parting a text at its first line of code keeps it in lines. -/
theorem cut_preamble_body (text : Bytes) : Cut (preamble (lines text) ++ body (lines text)) := by
  rw [preamble_append_body]
  exact cut_lines text

theorem take_preamble (ls : List Bytes) : ls.take (preamble ls).length = preamble ls :=
  (List.prefix_iff_eq_take.mp (List.takeWhile_prefix _)).symm

theorem drop_preamble (ls : List Bytes) : ls.drop (preamble ls).length = body ls := by
  have h := List.take_append_drop (preamble ls).length ls
  rw [take_preamble] at h
  exact List.append_cancel_left (h.trans (preamble_append_body ls).symm)

theorem body_eq_nil_iff {ls : List Bytes} :
    body ls = [] ↔ ∀ l ∈ ls, (LineKind.of l).isPreamble = true := by
  unfold body
  rw [List.dropWhile_eq_nil_iff]

theorem body_body (ls : List Bytes) : body (body ls) = body ls :=
  List.dropWhile_idempotent _ ls

theorem splice_insertLine (ls : List Bytes) (block : Bytes) :
    splice ls (insertLine ls) block =
      (preamble ls).flatten ++ separator (preamble ls) (body ls) ++ block ++ (body ls).flatten := by
  unfold splice insertLine
  rw [Nat.add_sub_cancel, take_preamble, drop_preamble]

theorem mem_separator {head tail : List Bytes} : ∀ b ∈ separator head tail, b = newline := by
  intro b hb
  unfold separator at hb
  rcases List.mem_append.mp hb with hb | hb
  · split at hb <;> simp_all
  · split at hb <;> simp_all

/-- Ahead of code nothing is added. -/
theorem separator_of_ne_nil {head tail : List Bytes} (hc : Cut (head ++ tail)) (ht : tail ≠ []) :
    separator head tail = [] := by
  have hopen : head.getLast?.any isOpen = false := by
    cases hl : head.getLast? with
    | none => rfl
    | some l =>
        have hmem : l ∈ (head ++ tail).dropLast := by
          rw [List.dropLast_append_of_ne_nil ht]
          exact List.mem_append_left _ (List.mem_of_getLast? hl)
        exact not_isOpen_iff.mpr (hc.ended l hmem)
  simp [separator, hopen, ht]

/-- At the end of a text one newline is added, or two if its last line is open. -/
theorem separator_nil (head : List Bytes) :
    separator head [] = if head.getLast?.any isOpen then [newline, newline] else [newline] := by
  unfold separator
  split <;> rfl

/-- A newline behind the last line, if that one is open, closes any list of lines. -/
theorem closed_flatten_append (ls : List Bytes) :
    Closed (ls.flatten ++ if ls.getLast?.any isOpen then [newline] else []) := by
  split
  · exact closed_concat_newline _
  · rename_i hopen
    rcases List.eq_nil_or_concat ls with rfl | ⟨head, l, rfl⟩
    · simp
    · have hl : l.getLast? = some newline := not_isOpen_iff.mp (by simpa using hopen)
      rw [List.append_nil, List.concat_eq_append, List.flatten_append]
      unfold Closed
      simp [hl]

/-- What stands ahead of a block is closed, also where the lines are no cut of a text. -/
theorem closed_append_separator (head tail : List Bytes) :
    Closed (head.flatten ++ separator head tail) := by
  rw [separator, ← List.append_assoc]
  apply (closed_flatten_append head).append
  split
  · exact closed_singleton.mpr rfl
  · exact closed_nil

/-- How a plan composes its result: `lead` is everything ahead of the block. -/
structure Placed (b : Block) (text contents lead : Bytes) : Prop where
  contents_eq : contents = lead ++ (b.bytes ++ (body (lines text)).flatten)
  lead_eq : lead = (preamble (lines text)).flatten ++
    separator (preamble (lines text)) (body (lines text))
  closed : Closed lead
  unmarked : ¬ b.mark <:+: lead

theorem placed_of_plan {text contents : Bytes} {b : Block} {line : Nat}
    (h : plan text b = .insert line contents) : ∃ lead, Placed b text contents lead := by
  unfold plan at h
  split at h
  · cases h
  · rename_i hmarked
    cases h
    refine ⟨_, by rw [splice_insertLine]; simp only [List.append_assoc], rfl,
      closed_append_separator _ _, ?_⟩
    intro hin
    apply hmarked
    rw [b.isMarked_mark_iff]
    have hpre := Bytes.infix_of_infix_newlines b.newline_notMem_mark mem_separator hin
    have htext : (preamble (lines text)).flatten <:+: text := by
      conv_rhs => rw [← flatten_lines text, ← preamble_append_body (lines text), List.flatten_append]
      exact List.infix_append_left
    exact hpre.trans htext

/-! ### Recovery -/

/-- Two texts without code that are the same once newlines are added differ by one newline. -/
theorem texts_of_same_end {s t : Bytes} (h : s ++ separator (lines s) [] = t ++ separator (lines t) []) :
    s = t ∨ s = t ++ [newline] ∨ t = s ++ [newline] := by
  simp only [separator_nil] at h
  split at h <;> split at h
  · exact .inl (List.append_cancel_right h)
  · refine .inr (.inr ?_)
    have : s ++ [newline] ++ [newline] = t ++ [newline] := by simpa using h
    exact (List.append_cancel_right this).symm
  · refine .inr (.inl ?_)
    have : s ++ [newline] = t ++ [newline] ++ [newline] := by simpa using h
    exact List.append_cancel_right this
  · exact .inl (List.append_cancel_right h)

/-- **No text is lost.**  If a block makes the same of two texts, they are equal, or neither has a
line of code and one is the other with a newline behind it. -/
theorem texts_of_same_plan (b : Block) (s t contents : Bytes) (m n : Nat)
    (hs : plan s b = .insert m contents) (ht : plan t b = .insert n contents) :
    s = t ∨ (∀ l ∈ lines s, (LineKind.of l).isPreamble = true) ∧
      (∀ l ∈ lines t, (LineKind.of l).isPreamble = true) ∧
      (s = t ++ [newline] ∨ t = s ++ [newline]) := by
  obtain ⟨p, hp⟩ := placed_of_plan hs
  obtain ⟨q, hq⟩ := placed_of_plan ht
  have heq : p ++ (b.bytes ++ (body (lines s)).flatten) =
      q ++ (b.bytes ++ (body (lines t)).flatten) := hp.contents_eq.symm.trans hq.contents_eq
  have hpq : p = q := Bytes.eq_of_append_landmark b.newline_notMem_mark b.mark_infix_bytes
    hp.closed hq.closed hp.unmarked hq.unmarked heq
  have hbody : (body (lines s)).flatten = (body (lines t)).flatten := by
    rw [hpq] at heq
    exact List.append_cancel_left (List.append_cancel_left heq)
  have hcs := preamble_append_body (lines s) ▸ cut_lines s
  have hct := preamble_append_body (lines t) ▸ cut_lines t
  have hbody' : body (lines s) = body (lines t) := by
    rw [← lines_flatten hcs.right, hbody, lines_flatten hct.right]
  have hlead := hp.lead_eq.symm.trans (hpq.trans hq.lead_eq)
  by_cases hnil : body (lines s) = []
  · -- no code: the whole texts stand ahead of the block
    have hnil' := hbody'.symm.trans hnil
    have hpre : preamble (lines s) = lines s := by
      simpa [hnil] using preamble_append_body (lines s)
    have hpre' : preamble (lines t) = lines t := by
      simpa [hnil'] using preamble_append_body (lines t)
    rw [hnil, hnil', hpre, hpre', flatten_lines, flatten_lines] at hlead
    rcases texts_of_same_end hlead with h | h
    · exact .inl h
    · exact .inr ⟨body_eq_nil_iff.mp hnil, body_eq_nil_iff.mp hnil', h⟩
  · have hnil' : body (lines t) ≠ [] := hbody' ▸ hnil
    rw [separator_of_ne_nil hcs hnil, separator_of_ne_nil hct hnil', List.append_nil,
      List.append_nil] at hlead
    left
    rw [← flatten_lines s, ← flatten_lines t, ← preamble_append_body (lines s),
      ← preamble_append_body (lines t), List.flatten_append, List.flatten_append, hlead, hbody']

/-- A comment with and without its newline: a block makes the same of both. -/
theorem texts_of_same_plan_comment :
    plan [0x23] Block.short = .insert 2 [0x23, newline, newline, 0x4d, newline] ∧
      plan [0x23, newline] Block.short = .insert 2 [0x23, newline, newline, 0x4d, newline] ∧
      ([0x23] = [0x23, newline] ∨ (∀ l ∈ lines [0x23], (LineKind.of l).isPreamble = true) ∧
        (∀ l ∈ lines [0x23, newline], (LineKind.of l).isPreamble = true) ∧
        ([0x23] = [0x23, newline] ++ [newline] ∨ [0x23, newline] = [0x23] ++ [newline])) := by
  have hs : plan [0x23] Block.short = .insert 2 [0x23, newline, newline, 0x4d, newline] := by
    decide +kernel
  have ht : plan [0x23, newline] Block.short =
      .insert 2 [0x23, newline, newline, 0x4d, newline] := by decide +kernel
  exact ⟨hs, ht, texts_of_same_plan Block.short [0x23] [0x23, newline] _ 2 2 hs ht⟩

end Source

end StubInsertion
