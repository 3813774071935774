/-!
# TestRig.Text.Blank — blank characters and trimming

Texts given on a command line are trimmed before they are read, and a text of blanks counts as
no text.  A blank is a character of Unicode's `White_Space` property or one of the four
information separators U+001C to U+001F.

* `Text.trimChars` cuts the blanks at both ends and nothing else.
* `dropWhileEnd_append_of_all`: a tail of blanks is cut whole.
-/

namespace TestRig.Text

/-- A blank: white space, or an information separator. -/
def isBlank (c : Char) : Bool :=
  let n := c.toNat
  (9 ≤ n && n ≤ 13) || (28 ≤ n && n ≤ 32) || n == 0x85 || n == 0xA0 || n == 0x1680 ||
    (0x2000 ≤ n && n ≤ 0x200A) || n == 0x2028 || n == 0x2029 || n == 0x202F || n == 0x205F ||
    n == 0x3000

/-- Drop the longest tail whose characters all satisfy `p`. -/
def dropWhileEnd (p : Char → Bool) : List Char → List Char
  | [] => []
  | c :: r =>
    match dropWhileEnd p r with
    | [] => if p c then [] else [c]
    | d :: s => c :: d :: s

/-- Cut the blanks at both ends. -/
def trimChars (cs : List Char) : List Char := dropWhileEnd isBlank (cs.dropWhile isBlank)

/-- A text that has no character, or blanks only. -/
def isBlankText (s : String) : Bool := s.toList.all isBlank

/-! ## Facts -/

@[simp] theorem dropWhileEnd_nil (p : Char → Bool) : dropWhileEnd p [] = [] := rfl

theorem dropWhileEnd_of_all {p : Char → Bool} {cs : List Char} (h : cs.all p) :
    dropWhileEnd p cs = [] := by
  induction cs with
  | nil => rfl
  | cons c r ih =>
    simp only [List.all_cons, Bool.and_eq_true] at h
    simp [dropWhileEnd, ih h.2, h.1]

theorem dropWhileEnd_eq_nil {p : Char → Bool} {cs : List Char} :
    dropWhileEnd p cs = [] ↔ ∀ c ∈ cs, p c = true := by
  refine ⟨fun h => ?_, fun h => dropWhileEnd_of_all (List.all_eq_true.mpr h)⟩
  induction cs with
  | nil => simp
  | cons c r ih =>
    rw [dropWhileEnd] at h
    split at h
    · rename_i hr
      split at h
      · rename_i hc
        exact List.forall_mem_cons.mpr ⟨hc, ih hr⟩
      · cases h
    · cases h

/-- Nothing is left of a text that is trimmed only if it is blank. -/
theorem trimChars_eq_nil {cs : List Char} : trimChars cs = [] ↔ ∀ c ∈ cs, isBlank c = true := by
  rw [trimChars, dropWhileEnd_eq_nil]
  constructor
  · intro h c hc
    rw [← List.takeWhile_append_dropWhile (p := isBlank) (l := cs), List.mem_append] at hc
    exact hc.elim (List.all_eq_true.mp List.all_takeWhile c) (h c)
  · exact fun h c hc => h c ((List.dropWhile_sublist _).mem hc)

theorem dropWhileEnd_append_of_all {p : Char → Bool} {a b : List Char} (h : b.all p) :
    dropWhileEnd p (a ++ b) = dropWhileEnd p a := by
  induction a with
  | nil => simpa using dropWhileEnd_of_all h
  | cons c r ih => simp only [List.cons_append, dropWhileEnd, ih]

theorem dropWhileEnd_append_singleton {p : Char → Bool} {a : List Char} {c : Char}
    (h : p c = false) : dropWhileEnd p (a ++ [c]) = a ++ [c] := by
  induction a with
  | nil => simp [dropWhileEnd, h]
  | cons d r ih =>
    rw [List.cons_append, dropWhileEnd, ih]
    cases r <;> rfl

end TestRig.Text
