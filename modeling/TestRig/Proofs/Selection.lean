import TestRig.Proofs.Admission
import TestRig.Proofs.Numerals

/-!
# TestRig.Proofs.Selection — the name of a test as a specification

A test is selected by its name.  Blanks are cut at both ends of the name and of what stands in front of
the number, so a name selects its own test unless its group begins with a blank or its subgroup ends in
one.

* `Registry.readSpec_append_natChars`: what is read of a text and a number behind a dot.
* `Registry.readSpec_name`: what the name of a test is read as, whatever the group and subgroup are.
* `Registry.readSpec_of_trimmed`: it is read as the key of the test.
-/

namespace TestRig

namespace Text

/-- Blanks at the beginning are cut from the first part only, if the second does not begin with one. -/
theorem dropWhile_append_of_head {p : Char → Bool} {a b : List Char} {c : Char} (hc : p c = false) :
    (a ++ c :: b).dropWhile p = a.dropWhile p ++ c :: b := by
  rw [List.dropWhile_append]
  split
  · rename_i hnil
    rw [List.isEmpty_iff.mp hnil, List.nil_append, List.dropWhile_cons, if_neg (by simp [hc])]
  · rfl

theorem trimChars_dropWhile (cs : List Char) : trimChars (cs.dropWhile isBlank) = trimChars cs := by
  have hhead : ∀ c ∈ (cs.dropWhile isBlank).head?, isBlank c = false := by
    intro c hc
    have hnot := List.head?_dropWhile_not isBlank cs
    rw [Option.mem_def.mp hc] at hnot
    exact hnot
  rw [trimChars, trimChars, dropWhile_of_head hhead]

theorem isBlank_dot : isBlank '.' = false := by decide

/-- The last character behind a dot is no blank if the last one of the rest is none. -/
theorem getLast_append_dot {a b : List Char} (h : ∀ c ∈ b.getLast?, isBlank c = false) :
    ∀ c ∈ (a ++ '.' :: b).getLast?, isBlank c = false := by
  intro c hc
  rw [List.getLast?_append, List.getLast?_cons] at hc
  cases hb : b.getLast? with
  | none =>
    rw [hb] at hc
    cases hc
    exact isBlank_dot
  | some d =>
    rw [hb] at hc
    cases hc
    exact h d hb

/-- A numeral behind a dot keeps the blanks in front of the dot. -/
theorem trimChars_append_natChars (cs : List Char) (n : Nat) :
    trimChars (cs ++ '.' :: natChars n) = cs.dropWhile isBlank ++ '.' :: natChars n := by
  have hlast := getLast_append_dot (a := cs.dropWhile isBlank) (b := natChars n) fun c hc =>
    (natChars_spec (List.mem_of_getLast? hc)).2.1
  rw [trimChars, dropWhile_append_of_head isBlank_dot, dropWhileEnd_of_getLast hlast]

end Text

namespace Registry

variable {r : Registry} {test : Identity}

theorem nameChars_eq (test : Identity) : test.name.toList =
    (test.group.toList ++ '.' :: test.subgroup.toList) ++ '.' :: Text.natChars test.number := by
  simp [Identity.name, Identity.nameChars]

/-- What is read of a text and a number behind a dot: the number, and the text without the blanks
around it and without the group. -/
theorem readSpec_append_natChars {spec : String} {cs : List Char} {n : Nat}
    (hspec : spec.toList = cs ++ '.' :: Text.natChars n) (hn : n < 10 ^ Text.maxDigits) :
    r.readSpec spec = .ok (String.ofList (r.withoutGroup (Text.trimChars cs)), n) := by
  have hdot : '.' ∉ Text.natChars n := fun h => (Text.natChars_spec h).2.2 rfl
  rw [readSpec, hspec, Text.trimChars_append_natChars, Text.cutLast_append hdot]
  simp only [readTestNumber_natChars hn, Text.trimChars_dropWhile]
  rfl

/-- **The name of a test as a specification**: its number, and its group and subgroup without the
blanks around them. -/
theorem readSpec_name (hn : test.number < 10 ^ Text.maxDigits) :
    r.readSpec test.name = .ok (String.ofList (r.withoutGroup
      (Text.trimChars (test.group.toList ++ '.' :: test.subgroup.toList))), test.number) :=
  readSpec_append_natChars (nameChars_eq test) hn

theorem withoutGroup_append_dot (rest : List Char) :
    r.withoutGroup (r.group.toList ++ '.' :: rest) = rest := by
  have hdrop : Text.dropStart? (r.group.toList ++ ['.']) (r.group.toList ++ '.' :: rest) = some rest :=
    Text.dropStart?_eq_some.mpr (by simp)
  rw [withoutGroup, hdrop, Option.getD_some]

/-- A test whose name has no blanks in the wrong places is selected by it. -/
theorem readSpec_of_trimmed (hgroup : r.group = test.group)
    (hfirst : ∀ c ∈ test.group.toList.head?, Text.isBlank c = false)
    (hlast : ∀ c ∈ test.subgroup.toList.getLast?, Text.isBlank c = false)
    (hn : test.number < 10 ^ Text.maxDigits) : r.readSpec test.name = .ok test.key := by
  have hhead : ∀ c ∈ (test.group.toList ++ '.' :: test.subgroup.toList).head?,
      Text.isBlank c = false := by
    intro c hc
    cases hg : test.group.toList with
    | nil =>
      rw [hg] at hc
      cases hc
      exact Text.isBlank_dot
    | cons d ds =>
      rw [hg] at hc hfirst
      exact hfirst c hc
  have htrim := Text.trimChars_of_ends hhead (Text.getLast_append_dot hlast)
  rw [readSpec_name hn, htrim, ← hgroup, withoutGroup_append_dot, String.ofList_toList]
  rfl

end Registry

end TestRig
