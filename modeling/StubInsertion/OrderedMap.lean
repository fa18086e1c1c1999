/-!
# Ordered maps

Finite maps as lists of bindings with strictly ascending keys. There is one list for each map, so
maps with the same bindings are equal (`ext`).

* **Look-up.** `get?` reads a binding (`get?_eq_some_iff`); `get?_insert` and `get?_erase` say what
  a change does to it.
* **Change.** `insert` adds or replaces a binding, `erase` removes one.
-/

namespace StubInsertion

/-- A finite map from `κ` to `ν`. -/
structure OrderedMap (κ ν : Type) [Ord κ] where
  bindings : List (κ × ν)
  ascending : bindings.Pairwise fun a b => compare a.1 b.1 = .lt

namespace OrderedMap

variable {κ ν : Type} [Ord κ]

/-! ### Bindings in a list -/

/-- The value bound to `key`. -/
def find (key : κ) : List (κ × ν) → Option ν
  | [] => none
  | (k, v) :: rest => if compare key k = .eq then some v else find key rest

/-- The list with `key` bound to `value`, kept in order. -/
def put (key : κ) (value : ν) : List (κ × ν) → List (κ × ν)
  | [] => [(key, value)]
  | (k, v) :: rest => match compare key k with
    | .lt => (key, value) :: (k, v) :: rest
    | .eq => (key, value) :: rest
    | .gt => (k, v) :: put key value rest

theorem mem_put {key : κ} {value : ν} {b : κ × ν} {l : List (κ × ν)} :
    b ∈ put key value l → b = (key, value) ∨ b ∈ l := by
  induction l with
  | nil => simp [put]
  | cons head rest ih =>
    obtain ⟨k, v⟩ := head
    simp only [put]
    split <;> grind

/-- The map without bindings. -/
def empty : OrderedMap κ ν := ⟨[], .nil⟩

/-- The value bound to `key`. -/
def get? (m : OrderedMap κ ν) (key : κ) : Option ν := find key m.bindings

@[simp] theorem get?_empty (key : κ) : (empty : OrderedMap κ ν).get? key = none := rfl

/-! ### Order -/

theorem find_eq_none_of_lt {key : κ} {l : List (κ × ν)}
    (h : ∀ b ∈ l, compare key b.1 = .lt) : find key l = none := by
  induction l with
  | nil => rfl
  | cons head rest ih =>
    simp only [find, h head (List.mem_cons_self ..)]
    exact ih fun b hb => h b (List.mem_cons_of_mem _ hb)

variable [Std.TransOrd κ] [Std.LawfulEqOrd κ]

theorem pairwise_put (key : κ) (value : ν) {l : List (κ × ν)}
    (h : l.Pairwise fun a b => compare a.1 b.1 = .lt) :
    (put key value l).Pairwise fun a b => compare a.1 b.1 = .lt := by
  induction l with
  | nil => simp [put]
  | cons head rest ih =>
    obtain ⟨k, v⟩ := head
    rw [List.pairwise_cons] at h
    simp only [put]
    split
    · rename_i lt
      refine List.pairwise_cons.2 ⟨fun b hb => ?_, List.pairwise_cons.2 h⟩
      rcases List.mem_cons.1 hb with rfl | hb
      · exact lt
      · exact Std.TransCmp.lt_trans lt (h.1 b hb)
    · rename_i eq
      rw [Std.LawfulEqOrd.eq_of_compare eq]
      exact List.pairwise_cons.2 h
    · rename_i gt
      refine List.pairwise_cons.2 ⟨fun b hb => ?_, ih h.2⟩
      rcases mem_put hb with rfl | hb
      · exact Std.OrientedCmp.lt_of_gt gt
      · exact h.1 b hb

omit [Std.TransOrd κ] in
theorem find_put [DecidableEq κ] (key key' : κ) (value : ν) (l : List (κ × ν)) :
    find key' (put key value l) = if key' = key then some value else find key' l := by
  induction l with
  | nil => simp [put, find]
  | cons head rest ih =>
    obtain ⟨k, v⟩ := head
    simp only [put]
    split
    · simp [find]
    · rename_i eq
      rw [Std.LawfulEqOrd.eq_of_compare eq]
      simp only [find, Std.LawfulEqOrd.compare_eq_iff_eq]
      split <;> simp_all
    · rename_i gt
      have : k ≠ key := by rintro rfl; simp at gt
      simp only [find, Std.LawfulEqOrd.compare_eq_iff_eq, ih]
      split <;> simp_all

omit [Std.TransOrd κ] in
theorem find_filter [DecidableEq κ] (key key' : κ) (l : List (κ × ν)) :
    find key' (l.filter fun b => compare key b.1 ≠ .eq) =
      if key' = key then none else find key' l := by
  induction l with
  | nil => simp [find]
  | cons head rest ih =>
    obtain ⟨k, v⟩ := head
    by_cases h : key = k
    · subst h
      rw [List.filter_cons_of_neg (by simp), ih]
      by_cases h' : key' = key <;> simp [find, h']
    · rw [List.filter_cons_of_pos (by simpa using h)]
      simp only [find, Std.LawfulEqOrd.compare_eq_iff_eq, ih]
      by_cases h' : key' = k
      · subst h'
        simp [Ne.symm h]
      · simp [h']

theorem eq_of_find_eq {l m : List (κ × ν)}
    (hl : l.Pairwise fun a b => compare a.1 b.1 = .lt)
    (hm : m.Pairwise fun a b => compare a.1 b.1 = .lt)
    (h : ∀ key, find key l = find key m) : l = m := by
  induction l generalizing m with
  | nil =>
    cases m with
    | nil => rfl
    | cons head rest => simpa [find] using h head.1
  | cons a l ih =>
    cases m with
    | nil => simpa [find] using h a.1
    | cons b m =>
      rw [List.pairwise_cons] at hl hm
      have ha := h a.1
      have hb := h b.1
      simp only [find, Std.ReflCmp.compare_self, if_true] at ha hb
      have key : a.1 = b.1 := by
        cases e : compare a.1 b.1 with
        | eq => exact Std.LawfulEqOrd.eq_of_compare e
        | lt =>
          rw [if_neg (by simp [e]), find_eq_none_of_lt] at ha
          · simp at ha
          · exact fun x hx => Std.TransCmp.lt_trans e (hm.1 x hx)
        | gt =>
          have e' := Std.OrientedCmp.lt_of_gt e
          rw [if_neg (by simp [e']), find_eq_none_of_lt] at hb
          · simp at hb
          · exact fun x hx => Std.TransCmp.lt_trans e' (hl.1 x hx)
      have value : a.2 = b.2 := by simpa [key] using ha
      have pair : a = b := Prod.ext key value
      subst pair
      congr 1
      refine ih hl.2 hm.2 fun k => ?_
      have hk := h k
      simp only [find] at hk
      split at hk
      · rename_i e
        have e := Std.LawfulEqOrd.eq_of_compare e
        subst e
        rw [find_eq_none_of_lt hl.1, find_eq_none_of_lt hm.1]
      · exact hk

/-! ### Maps -/

/-- The map with `key` bound to `value`. -/
def insert (m : OrderedMap κ ν) (key : κ) (value : ν) : OrderedMap κ ν :=
  ⟨put key value m.bindings, pairwise_put key value m.ascending⟩

/-- The map without a binding of `key`. -/
def erase (m : OrderedMap κ ν) (key : κ) : OrderedMap κ ν :=
  ⟨m.bindings.filter fun b => compare key b.1 ≠ .eq, m.ascending.filter _⟩

theorem get?_insert [DecidableEq κ] (m : OrderedMap κ ν) (key key' : κ) (value : ν) :
    (m.insert key value).get? key' = if key' = key then some value else m.get? key' :=
  find_put ..

omit [Std.TransOrd κ] in
theorem get?_erase [DecidableEq κ] (m : OrderedMap κ ν) (key key' : κ) :
    (m.erase key).get? key' = if key' = key then none else m.get? key' :=
  find_filter ..

theorem find_of_mem {key : κ} {value : ν} {l : List (κ × ν)}
    (h : l.Pairwise fun a b => compare a.1 b.1 = .lt) (mem : (key, value) ∈ l) :
    find key l = some value := by
  induction l with
  | nil => simp at mem
  | cons head rest ih =>
    rw [List.pairwise_cons] at h
    rcases List.mem_cons.1 mem with rfl | mem
    · simp [find]
    · have : compare key head.1 = .gt := Std.OrientedCmp.gt_of_lt (h.1 _ mem)
      simp [find, this, ih h.2 mem]

omit [Std.TransOrd κ] in
theorem mem_of_find {key : κ} {value : ν} {l : List (κ × ν)} (h : find key l = some value) :
    (key, value) ∈ l := by
  induction l with
  | nil => simp [find] at h
  | cons head rest ih =>
    simp only [find] at h
    split at h
    · rename_i e
      have e := Std.LawfulEqOrd.eq_of_compare e
      subst e
      exact List.mem_cons.2 (.inl (Prod.ext rfl (Option.some.inj h).symm))
    · exact List.mem_cons_of_mem _ (ih h)

/-- A key has a value if and only if the two are bound. -/
theorem get?_eq_some_iff {m : OrderedMap κ ν} {key : κ} {value : ν} :
    m.get? key = some value ↔ (key, value) ∈ m.bindings :=
  ⟨mem_of_find, find_of_mem m.ascending⟩

/-- Maps with the same bindings are equal. -/
theorem ext {m m' : OrderedMap κ ν} (h : ∀ key, m.get? key = m'.get? key) : m = m' := by
  cases m with
  | mk l hl => cases m' with
    | mk l' hl' =>
      have : l = l' := eq_of_find_eq hl hl' h
      subst this
      rfl

instance [DecidableEq κ] [DecidableEq ν] : DecidableEq (OrderedMap κ ν) := fun a b =>
  decidable_of_iff (a.bindings = b.bindings)
    ⟨fun h => by cases a; cases b; simp_all, fun h => h ▸ rfl⟩

end OrderedMap

end StubInsertion
