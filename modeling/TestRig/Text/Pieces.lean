/-!
# TestRig.Text.Pieces — cutting a text at a separator

* `cutFirst` cuts at the first occurrence of a character, `cutLast` at the last one.
* `lines` cuts at every newline; joined again they are the text (`joinWith_splitAt`).
* `dropStart?` takes a given beginning off a text.
-/

namespace TestRig.Text

/-- The part before the first `c` and the part after it, if `c` occurs. -/
def cutFirst (c : Char) : List Char → Option (List Char × List Char)
  | [] => none
  | d :: r => if d = c then some ([], r) else (cutFirst c r).map fun (a, b) => (d :: a, b)

/-- The part before the last `c` and the part after it, if `c` occurs. -/
def cutLast (c : Char) : List Char → Option (List Char × List Char)
  | [] => none
  | d :: r =>
    match cutLast c r with
    | some (a, b) => some (d :: a, b)
    | none => if d = c then some ([], r) else none

/-- The pieces between the occurrences of `c`; there is always at least one. -/
def splitAt (c : Char) : List Char → List (List Char)
  | [] => [[]]
  | d :: r =>
    if d = c then [] :: splitAt c r else
    match splitAt c r with
    | [] => [[d]]
    | p :: ps => (d :: p) :: ps

def lines (cs : List Char) : List (List Char) := splitAt '\n' cs

/-- Put `sep` between the pieces. -/
def joinWith (sep : List Char) : List (List Char) → List Char
  | [] => []
  | [p] => p
  | p :: q :: ps => p ++ sep ++ joinWith sep (q :: ps)

/-- Does `t` begin with `p`? If so, the remaining text. -/
def dropStart? : List Char → List Char → Option (List Char)
  | [], t => some t
  | _ :: _, [] => none
  | p :: ps, c :: t => if p = c then dropStart? ps t else none

/-! ## Facts -/

theorem cutFirst_eq_none {c : Char} {cs : List Char} : cutFirst c cs = none ↔ c ∉ cs := by
  induction cs with
  | nil => simp [cutFirst]
  | cons d r ih =>
    by_cases h : d = c
    · simp [cutFirst, h]
    · have : c ≠ d := fun e => h e.symm
      simp [cutFirst, h, ih, this]

theorem cutLast_eq_none {c : Char} {cs : List Char} : cutLast c cs = none ↔ c ∉ cs := by
  induction cs with
  | nil => simp [cutLast]
  | cons d r ih =>
    unfold cutLast
    cases h : cutLast c r with
    | none =>
      by_cases hd : d = c
      · simp [hd]
      · have : c ≠ d := fun e => hd e.symm
        simp [hd, this, ih.mp h]
    | some p =>
      have hm : c ∈ r := by
        by_cases hm : c ∈ r
        · exact hm
        · rw [ih.mpr hm] at h; exact absurd h (by simp)
      simp [hm]

/-- The last cut falls where nothing after it holds the separator. -/
theorem cutLast_append {c : Char} {a b : List Char} (h : c ∉ b) :
    cutLast c (a ++ c :: b) = some (a, b) := by
  induction a with
  | nil => simp [cutLast, cutLast_eq_none.mpr h]
  | cons d r ih => simp [cutLast, ih]

/-- The last cut falls where nothing after it holds the separator, and nowhere else. -/
theorem cutLast_eq_some {c : Char} {cs a b : List Char} :
    cutLast c cs = some (a, b) ↔ cs = a ++ c :: b ∧ c ∉ b := by
  constructor
  · intro h
    induction cs generalizing a with
    | nil => cases h
    | cons d r ih =>
      rw [cutLast] at h
      cases hr : cutLast c r with
      | some p =>
        obtain ⟨a', b'⟩ := p
        simp only [hr, Option.some.injEq, Prod.mk.injEq] at h
        obtain ⟨rfl, rfl⟩ := h
        obtain ⟨rfl, hb⟩ := ih hr
        exact ⟨rfl, hb⟩
      | none =>
        simp only [hr, Option.ite_none_right_eq_some, Option.some.injEq, Prod.mk.injEq] at h
        obtain ⟨rfl, rfl, rfl⟩ := h
        exact ⟨rfl, cutLast_eq_none.mp hr⟩
  · rintro ⟨rfl, hb⟩
    exact cutLast_append hb

theorem cutFirst_append {c : Char} {a b : List Char} (h : c ∉ a) :
    cutFirst c (a ++ c :: b) = some (a, b) := by
  induction a with
  | nil => simp [cutFirst]
  | cons d r ih =>
    simp only [List.mem_cons, not_or] at h
    have hd : d ≠ c := fun e => h.1 e.symm
    simp [cutFirst, hd, ih h.2]

theorem cutFirst_getD (c : Char) (cs : List Char) :
    ((cutFirst c cs).getD (cs, [])).1 = cs.takeWhile (· != c) := by
  induction cs with
  | nil => rfl
  | cons d r ih =>
    by_cases h : d = c
    · simp [cutFirst, h]
    · rw [List.takeWhile_cons, if_pos (by simpa using h), ← ih, cutFirst, if_neg h]
      cases cutFirst c r <;> rfl

theorem splitAt_ne_nil (c : Char) (cs : List Char) : splitAt c cs ≠ [] := by
  induction cs with
  | nil => simp [splitAt]
  | cons d r ih =>
    unfold splitAt
    split
    · simp
    · split <;> simp

theorem joinWith_splitAt (c : Char) (cs : List Char) : joinWith [c] (splitAt c cs) = cs := by
  induction cs with
  | nil => rfl
  | cons d r ih =>
    unfold splitAt
    by_cases h : d = c
    · rw [if_pos h]
      cases hs : splitAt c r with
      | nil => exact absurd hs (splitAt_ne_nil c r)
      | cons p ps => rw [hs] at ih; simp [joinWith, ih, h]
    · rw [if_neg h]
      cases hs : splitAt c r with
      | nil => exact absurd hs (splitAt_ne_nil c r)
      | cons p ps =>
        rw [hs] at ih
        cases ps with
        | nil => simpa [joinWith] using ih
        | cons q qs => simpa [joinWith] using ih

theorem dropStart?_eq_some {p t r : List Char} : dropStart? p t = some r ↔ t = p ++ r := by
  induction p generalizing t with
  | nil => simp [dropStart?, eq_comm]
  | cons x p ih =>
    cases t with
    | nil => simp [dropStart?]
    | cons y t =>
      by_cases h : x = y
      · simp [dropStart?, h, ih]
      · have : ¬ y = x := fun e => h e.symm
        simp [dropStart?, h, this]

end TestRig.Text
