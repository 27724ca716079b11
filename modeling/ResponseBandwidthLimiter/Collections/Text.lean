import Mathlib.Data.List.DropRight

namespace collections

/-- Whether a text begins with a given beginning, compared code point by code
    point. -/
def starts_with (text beginning : String) : Bool :=
  beginning.toList.isPrefixOf text.toList

def ends_with (text ending : String) : Bool :=
  ending.toList.isSuffixOf text.toList

/-- The text without its last characters. -/
def drop_end (text : String) (count : Nat) : String :=
  String.ofList (text.toList.take (text.toList.length - count))

/-- Removal of one character at both ends. -/
def strip_char (stripped : Char) (text : String) : String :=
  String.ofList (((text.toList.dropWhile (· = stripped)).reverse.dropWhile (· = stripped)).reverse)

/-- The white space code points, including the ASCII separators. -/
def is_space (c : Char) : Bool :=
  let n := c.toNat
  (9 ≤ n && n ≤ 13) || (28 ≤ n && n ≤ 32) || n = 0x85 || n = 0xA0 || n = 0x1680 ||
    (0x2000 ≤ n && n ≤ 0x200A) || n = 0x2028 || n = 0x2029 || n = 0x202F || n = 0x205F || n = 0x3000

/-- Removal of white space at both ends. -/
def strip (text : String) : String :=
  String.ofList (((text.toList.dropWhile is_space).reverse.dropWhile is_space).reverse)

/-- The parts of a text between the occurrences of a separator. -/
def split (separator : Char) (text : String) : List String :=
  (text.toList.splitOn separator).map String.ofList

/-- Stripping a text again changes nothing. -/
theorem strip_strip (text : String) : strip (strip text) = strip text := by
  have hfront : ∀ codes :
      List Char, ((codes.dropWhile is_space).reverse.dropWhile is_space).reverse.dropWhile is_space =
      ((codes.dropWhile is_space).reverse.dropWhile is_space).reverse := by
    intro codes
    have hprefix : ((codes.dropWhile is_space).reverse.dropWhile is_space).reverse <+: codes.dropWhile is_space := by
      rw [← List.reverse_suffix, List.reverse_reverse]
      exact List.dropWhile_suffix _
    cases hstripped : ((codes.dropWhile is_space).reverse.dropWhile is_space).reverse with
    | nil => rfl
    | cons first rest =>
      obtain ⟨dropped, hdropped⟩ := hstripped ▸ hprefix
      have hsame := List.dropWhile_idempotent is_space codes
      rw [← hdropped, List.cons_append] at hsame
      by_cases hspace : is_space first = true
      · rw [List.dropWhile_cons_of_pos hspace] at hsame
        have hlength := congrArg List.length hsame
        have hle := (List.dropWhile_suffix is_space (l := rest ++ dropped)).length_le
        rw [List.length_cons] at hlength
        omega
      · exact List.dropWhile_cons_of_neg hspace
  have htwice := congrArg (fun codes => (codes.reverse.dropWhile is_space).reverse) (hfront text.toList)
  simp only [List.reverse_reverse, List.dropWhile_idempotent] at htwice
  simp only [strip, String.toList_ofList, htwice]

theorem starts_with_iff {text beginning : String} :
    starts_with text beginning = true ↔ beginning.toList <+: text.toList := by
  simp [starts_with]

theorem starts_with_append (beginning rest : String) :
    starts_with (beginning ++ rest) beginning = true := by
  rw [starts_with_iff, String.toList_append]
  exact List.prefix_append _ _

theorem starts_with_append_append (beginning text rest : String) :
    starts_with (beginning ++ text) (beginning ++ rest) = starts_with text rest := by
  rw [Bool.eq_iff_iff, starts_with_iff, starts_with_iff, String.toList_append, String.toList_append,
    List.prefix_append_right_inj]

/-- Two beginnings of one text are comparable, so a text cannot have two
    beginnings of which neither extends the other. -/
theorem starts_with_comparable {text first second : String}
    (hfirst : starts_with text first = true) (hsecond : starts_with text second = true) :
    starts_with first second = true ∨ starts_with second first = true := by
  rw [starts_with_iff] at hfirst hsecond
  rw [starts_with_iff, starts_with_iff]
  rcases Nat.le_total second.toList.length first.toList.length with hle | hle
  · exact Or.inl (List.prefix_of_prefix_length_le hsecond hfirst hle)
  · exact Or.inr (List.prefix_of_prefix_length_le hfirst hsecond hle)

theorem append_left_injective {beginning first second : String}
    (h : beginning ++ first = beginning ++ second) : first = second := by
  have hlist := congrArg String.toList h
  rw [String.toList_append, String.toList_append] at hlist
  exact String.toList_inj.mp (List.append_cancel_left hlist)

end collections
