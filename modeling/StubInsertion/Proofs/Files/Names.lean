import StubInsertion.Files.Walk

/-! # Names and siblings

A suffix that is added to a path is added to its last name and leaves the names ahead of it alone
(`names_sibling`), so a path and its siblings lie in one directory. -/

namespace StubInsertion
namespace Path

theorem split_of_notMem {a : Bytes} (h : slash ∉ a) : split a = [a] := by
  induction a with
  | nil => rfl
  | cons b rest ih =>
      rw [List.mem_cons, not_or] at h
      rw [split, if_neg (Ne.symm h.1), ih h.2]

/-- What is written behind a text without a slash joins its last piece. -/
theorem split_append (a : Bytes) : ∃ init last, split a = init ++ [last] ∧
    (∀ b, slash ∉ b → split (a ++ b) = init ++ [last ++ b]) ∧
    (a ≠ [] → a.getLast? ≠ some slash → last ≠ []) := by
  induction a with
  | nil => exact ⟨[], [], rfl, fun b hb => split_of_notMem hb, fun h => absurd rfl h⟩
  | cons x a ih =>
      obtain ⟨init, last, hs, happ, hne⟩ := ih
      by_cases hx : x = slash
      · refine ⟨[] :: init, last, ?_, ?_, ?_⟩
        · rw [split, if_pos hx, hs, List.cons_append]
        · intro b hb
          rw [List.cons_append, split, if_pos hx, happ b hb, List.cons_append]
        · intro _ hlast
          cases a with
          | nil => simp [hx] at hlast
          | cons y a => exact hne (by simp) (by simpa [List.getLast?_cons_cons] using hlast)
      · cases init with
        | nil =>
            refine ⟨[], x :: last, ?_, ?_, fun _ _ => by simp⟩
            · rw [split, if_neg hx, hs]
              rfl
            · intro b hb
              rw [List.cons_append, split, if_neg hx, happ b hb]
              rfl
        | cons piece init =>
            refine ⟨(x :: piece) :: init, last, ?_, ?_, ?_⟩
            · rw [split, if_neg hx, hs]
              rfl
            · intro b hb
              rw [List.cons_append, split, if_neg hx, happ b hb]
              rfl
            · intro _ hlast
              cases a with
              | nil => simp [split] at hs
              | cons y a => exact hne (by simp) (by simpa [List.getLast?_cons_cons] using hlast)

/-- **A sibling lies where the path lies** and has the suffix behind its last name. -/
theorem names_sibling {p : Path} (hne : p.bytes ≠ []) (hs : p.endsInSlash = false) :
    ∃ init last, p.names = init ++ [last] ∧
      ∀ suffix, slash ∉ suffix → (p.sibling suffix).names = init ++ [last ++ suffix] := by
  obtain ⟨init, last, hsplit, happ, hlast⟩ := split_append p.bytes
  have hl : last ≠ [] := hlast hne (by simpa [endsInSlash] using hs)
  refine ⟨init.filter fun piece => !piece.isEmpty, last, ?_, ?_⟩
  · unfold names
    rw [hsplit, List.filter_append]
    simp [hl]
  · intro suffix hsuffix
    unfold names sibling
    rw [happ suffix hsuffix, List.filter_append]
    simp [hl]

/-- A path without names is made of slashes. -/
theorem endsInSlash_of_names_nil {p : Path} (hne : p.bytes ≠ []) (hn : p.names = []) :
    p.endsInSlash = true := by
  cases hs : p.endsInSlash with
  | true => rfl
  | false =>
      obtain ⟨init, last, hnames, -⟩ := names_sibling hne hs
      simp [hn] at hnames

theorem endsInSlash_sibling (p : Path) {suffix : Bytes} (hne : suffix ≠ [])
    (hs : slash ∉ suffix) : (p.sibling suffix).endsInSlash = false := by
  have hlast : suffix.getLast? = some (suffix.getLast hne) := List.getLast?_eq_some_getLast hne
  unfold endsInSlash sibling
  rw [List.getLast?_append, hlast]
  have : suffix.getLast hne ≠ slash := fun e => hs (e ▸ List.getLast_mem hne)
  simpa using this

theorem isAbsolute_sibling {p : Path} (hne : p.bytes ≠ []) (suffix : Bytes) :
    (p.sibling suffix).isAbsolute = p.isAbsolute := by
  obtain ⟨b, rest, hb⟩ := List.exists_cons_of_ne_nil hne
  simp [isAbsolute, sibling, hb]

theorem admit_eq_ok_iff {p : Path} :
    p.admit = .ok () ↔ 0 ∉ p.bytes ∧ p.bytes ≠ [] ∧ p.bytes.length ≤ maxPath := by
  unfold Path.admit
  split
  · simp_all
  · split
    · simp_all
    · split
      · simp_all
      · simp_all

/-- A sibling can be looked up if the path can be and the suffix leaves it short enough. -/
theorem admit_sibling_iff {p : Path} (hp : p.admit = .ok ()) {suffix : Bytes} (h0 : 0 ∉ suffix) :
    Path.admit (p.sibling suffix) = .ok () ↔ p.bytes.length + suffix.length ≤ maxPath := by
  obtain ⟨h1, h2, -⟩ := admit_eq_ok_iff.mp hp
  rw [admit_eq_ok_iff]
  simp [sibling, h0, h1, h2]

end Path
end StubInsertion
