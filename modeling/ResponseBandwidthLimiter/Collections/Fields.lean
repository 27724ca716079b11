import Mathlib

namespace collections

/-- A text that can be a field between colons. -/
def Field (text : String) : Prop := ':' ∉ text.toList

/-- Two texts with a colon in between. -/
def join (first rest : String) : String := first ++ ":" ++ rest

theorem toList_join (first rest : String) : (join first rest).toList = first.toList ++ ':' :: rest.toList := by
  simp [join, String.toList_append]

theorem join_assoc (first second rest : String) : join first (join second rest) = join (join first second) rest := by
  simp only [join, String.append_assoc]

/-- Two ways to read a text agree, or one of them reads more before its colon. -/
theorem join_eq_join_iff {first second rest tail : String} :
    join first rest = join second tail ↔
      (first = second ∧ rest = tail) ∨ (∃ surplus, second = join first surplus ∧ rest = join surplus tail) ∨
        ∃ surplus, first = join second surplus ∧ tail = join surplus rest := by
  constructor
  · intro h
    have hlist := congrArg String.toList h
    rw [toList_join, toList_join, List.append_eq_append_iff] at hlist
    rcases hlist with ⟨middle, hsecond, hrest⟩ | ⟨middle, hfirst, htail⟩
    · cases middle with
      | nil =>
        simp only [List.nil_append, List.cons.injEq, true_and] at hrest
        exact Or.inl ⟨String.toList_inj.mp (by simpa using hsecond.symm), String.toList_inj.mp hrest⟩
      | cons colon surplus =>
        simp only [List.cons_append, List.cons.injEq] at hrest
        obtain ⟨rfl, hrest⟩ := hrest
        refine Or.inr (Or.inl ⟨String.ofList surplus, ?_, ?_⟩)
        · exact String.toList_inj.mp (by rw [toList_join, String.toList_ofList]; exact hsecond)
        · exact String.toList_inj.mp (by rw [toList_join, String.toList_ofList]; exact hrest)
    · cases middle with
      | nil =>
        simp only [List.nil_append, List.cons.injEq, true_and] at htail
        exact Or.inl ⟨String.toList_inj.mp (by simpa using hfirst), String.toList_inj.mp htail.symm⟩
      | cons colon surplus =>
        simp only [List.cons_append, List.cons.injEq] at htail
        obtain ⟨rfl, htail⟩ := htail
        refine Or.inr (Or.inr ⟨String.ofList surplus, ?_, ?_⟩)
        · exact String.toList_inj.mp (by rw [toList_join, String.toList_ofList]; exact hfirst)
        · exact String.toList_inj.mp (by rw [toList_join, String.toList_ofList]; exact htail)
  · rintro (⟨rfl, rfl⟩ | ⟨surplus, rfl, rfl⟩ | ⟨surplus, rfl, rfl⟩)
    · rfl
    · exact join_assoc first surplus tail
    · exact (join_assoc second surplus rest).symm

theorem not_field_join (first rest : String) : ¬ Field (join first rest) := by
  simp [Field, toList_join]

/-- A field is followed by a colon or is all there is before one. -/
theorem Field.join_eq_join_iff {field second rest tail : String} (hfield : Field field) :
    join field rest = join second tail ↔
      (field = second ∧ rest = tail) ∨ ∃ surplus, second = join field surplus ∧ rest = join surplus tail := by
  rw [collections.join_eq_join_iff]
  constructor
  · rintro (h | h | ⟨surplus, rfl, -⟩)
    · exact Or.inl h
    · exact Or.inr h
    · exact absurd hfield (not_field_join second surplus)
  · rintro (h | h)
    · exact Or.inl h
    · exact Or.inr (Or.inl h)

/-- A leading field can be read off. -/
theorem Field.join_left_inj {first second rest tail : String} (hfirst : Field first) (hsecond : Field second) :
    join first rest = join second tail ↔ first = second ∧ rest = tail := by
  rw [hfirst.join_eq_join_iff]
  constructor
  · rintro (h | ⟨surplus, rfl, -⟩)
    · exact h
    · exact absurd hsecond (not_field_join first surplus)
  · exact Or.inl

/-- A field at the end can be read off. -/
theorem Field.join_right_inj {first second rest tail : String} (hrest : Field rest) (htail : Field tail) :
    join first rest = join second tail ↔ first = second ∧ rest = tail := by
  rw [collections.join_eq_join_iff]
  constructor
  · rintro (h | ⟨surplus, -, rfl⟩ | ⟨surplus, -, rfl⟩)
    · exact h
    · exact absurd hrest (not_field_join surplus tail)
    · exact absurd htail (not_field_join surplus rest)
  · exact Or.inl

theorem digit_of_mem_repr {n : Nat} {c : Char} (hc : c ∈ (toString n).toList) : c.isDigit := by
  rw [Nat.toString_eq_repr, Nat.toList_repr] at hc
  exact Nat.isDigit_of_mem_toDigits (by decide) (by decide) hc

/-- The text of a number is a field. -/
theorem field_nat (n : Nat) : Field (toString n) := by
  intro hcolon
  have hdigit := digit_of_mem_repr hcolon
  revert hdigit
  decide

/-- The text of an integer has digits and a minus sign. -/
theorem digit_or_minus_of_mem_repr {n : ℤ} {c : Char} (hc : c ∈ (toString n).toList) : c.isDigit ∨ c = '-' := by
  rw [Int.toString_eq_repr, Int.repr_eq_if] at hc
  split at hc
  · exact Or.inl (digit_of_mem_repr (n := n.toNat) hc)
  · rw [String.toList_append, List.mem_append] at hc
    rcases hc with hminus | hdigits
    · exact Or.inr (List.mem_singleton.mp hminus)
    · exact Or.inl (digit_of_mem_repr (n := (-n).toNat) hdigits)

theorem field_int (n : ℤ) : Field (toString n) := by
  intro hcolon
  rcases digit_or_minus_of_mem_repr hcolon with hdigit | hminus
  · revert hdigit
    decide
  · revert hminus
    decide

section Names

variable {A : Type*} (tail : A → String)

/-- The second name goes on after the first one like a text that ends in
    another tail. -/
def Overlaps (first second : String) : Prop :=
  ∃ surplus, second = join first surplus ∧ ∃ x y, tail x = join surplus (tail y)

/-- Names before a colon keep apart what tails tell apart, unless one overlaps
    the other. -/
theorem join_isolates_iff {tail : A → String} (hinj : ∀ x y, tail x = tail y → x = y) (first second : String) :
    (∀ x y, join first (tail x) = join second (tail y) → first = second ∧ x = y) ↔
      ¬ Overlaps tail first second ∧ ¬ Overlaps tail second first := by
  constructor
  · intro h
    refine ⟨?_, ?_⟩
    · rintro ⟨surplus, rfl, x, y, heq⟩
      have hsame := (h x y (by rw [heq, join_assoc])).1
      have hlength := congrArg (fun text => text.toList.length) hsame
      simp only [toList_join, List.length_append, List.length_cons] at hlength
      omega
    · rintro ⟨surplus, rfl, x, y, heq⟩
      have hsame := (h y x (by rw [heq, join_assoc])).1
      have hlength := congrArg (fun text => text.toList.length) hsame
      simp only [toList_join, List.length_append, List.length_cons] at hlength
      omega
  · rintro ⟨hfirst, hsecond⟩ x y heq
    rcases join_eq_join_iff.mp heq with ⟨hsame, htail⟩ | ⟨surplus, hname, htail⟩ | ⟨surplus, hname, htail⟩
    · exact ⟨hsame, hinj x y htail⟩
    · exact absurd ⟨surplus, hname, x, y, htail⟩ hfirst
    · exact absurd ⟨surplus, hname, y, x, htail⟩ hsecond

end Names

end collections
