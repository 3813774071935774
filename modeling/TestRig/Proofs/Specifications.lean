import Mathlib.Data.List.DropRight
import TestRig.Proofs.Selection

/-!
# TestRig.Proofs.Specifications — which texts select a test

A test can be asked for by its name or by its key, the name without the group.  Both texts are always
read, and both are read back as the test they were written for unless a part that is cut off belongs to
it: a blank at an end, or the group at the beginning of a subgroup.

* `Text.trimChars_eq_self`, `Registry.withoutGroup_eq_self`: when nothing is cut off.
* `Registry.withoutGroup_trimChars_eq`: a text is its own subgroup.
* `Registry.withoutGroup_trimChars_append_eq`: a subgroup is found behind its group.
* `Registry.selectsOnly_iff`: a specification selects the test that it is read as, and no other.
* `Registry.selectsOnly_written_iff`: the tests that are selected by their names and by their keys.
-/

namespace TestRig

/-! ## Cutting off blanks -/

namespace Text

/-- The text begins with a blank. -/
def StartsBlank (s : String) : Prop := ∃ c ∈ s.toList.head?, isBlank c = true

/-- The text ends in a blank. -/
def EndsBlank (s : String) : Prop := ∃ c ∈ s.toList.getLast?, isBlank c = true

theorem not_startsBlank {s : String} :
    ¬ StartsBlank s ↔ ∀ c ∈ s.toList.head?, isBlank c = false := by
  simp [StartsBlank]

theorem not_endsBlank {s : String} :
    ¬ EndsBlank s ↔ ∀ c ∈ s.toList.getLast?, isBlank c = false := by
  simp [EndsBlank]

variable {p : Char → Bool} {a b cs : List Char}

theorem dropWhileEnd_isPrefix (p : Char → Bool) (cs : List Char) : dropWhileEnd p cs <+: cs := by
  induction cs with
  | nil => exact List.prefix_rfl
  | cons c r ih =>
    rw [dropWhileEnd]
    split
    · split
      · exact List.nil_prefix
      · exact List.cons_prefix_cons.mpr ⟨rfl, List.nil_prefix⟩
    · rename_i d s hr
      rw [hr] at ih
      exact List.cons_prefix_cons.mpr ⟨rfl, ih⟩

/-- Cutting off an end, in the words of the library of lists. -/
theorem dropWhileEnd_eq_rdropWhile (p : Char → Bool) (cs : List Char) :
    dropWhileEnd p cs = cs.rdropWhile p := by
  induction cs using List.reverseRecOn with
  | nil => rfl
  | append_singleton cs c ih =>
    rw [List.rdropWhile_concat]
    split
    · rename_i hc
      rw [dropWhileEnd_append_of_all (by simpa using hc), ih]
    · rename_i hc
      exact dropWhileEnd_append_singleton (by simpa using hc)

/-- What is left does not end in a character that is cut off. -/
theorem getLast_dropWhileEnd (p : Char → Bool) (cs : List Char) :
    ∀ c ∈ (dropWhileEnd p cs).getLast?, p c = false := by
  induction cs with
  | nil => simp
  | cons c r ih =>
    rw [dropWhileEnd]
    split
    · cases hc : p c <;> simp [hc]
    · rename_i d s hr
      rw [hr] at ih
      simpa using ih

/-- Nothing behind a character that is not cut off changes what is cut off in front of it. -/
theorem dropWhileEnd_append_cons {c : Char} (hc : p c = false) :
    dropWhileEnd p (a ++ c :: b) = a ++ c :: dropWhileEnd p b := by
  induction a with
  | nil =>
    rw [List.nil_append, List.nil_append, dropWhileEnd]
    cases hb : dropWhileEnd p b with
    | nil => rw [if_neg (by simp [hc])]
    | cons d s => rfl
  | cons d r ih =>
    rw [List.cons_append, dropWhileEnd, ih]
    cases r <;> rfl

theorem dropWhileEnd_eq_self : dropWhileEnd p cs = cs ↔ ∀ c ∈ cs.getLast?, p c = false := by
  refine ⟨fun h => ?_, dropWhileEnd_of_getLast⟩
  have hlast := getLast_dropWhileEnd p cs
  rwa [h] at hlast

theorem dropWhile_eq_self : cs.dropWhile p = cs ↔ ∀ c ∈ cs.head?, p c = false := by
  refine ⟨fun h c hc => ?_, dropWhile_of_head⟩
  have hnot := List.head?_dropWhile_not p cs
  rw [h, Option.mem_def.mp hc] at hnot
  exact hnot

theorem trimChars_sublist (cs : List Char) : (trimChars cs).Sublist cs :=
  (dropWhileEnd_isPrefix _ _).sublist.trans (List.dropWhile_sublist _)

/-- Nothing is cut off exactly when there is a blank at neither end. -/
theorem trimChars_eq_self : trimChars cs = cs ↔
    (∀ c ∈ cs.head?, isBlank c = false) ∧ ∀ c ∈ cs.getLast?, isBlank c = false := by
  refine ⟨fun h => ?_, fun h => trimChars_of_ends h.1 h.2⟩
  have hcut := (dropWhileEnd_isPrefix isBlank (cs.dropWhile isBlank)).length_le
  rw [← trimChars, h] at hcut
  have hfront : cs.dropWhile isBlank = cs := (List.dropWhile_sublist _).eq_of_length_le hcut
  rw [trimChars, hfront] at h
  exact ⟨dropWhile_eq_self.mp hfront, dropWhileEnd_eq_self.mp h⟩

/-- A dot inside a text keeps its two sides apart when the text is trimmed. -/
theorem trimChars_append_dot :
    trimChars (a ++ '.' :: b) = a.dropWhile isBlank ++ '.' :: dropWhileEnd isBlank b := by
  rw [trimChars, dropWhile_append_of_head isBlank_dot, dropWhileEnd_append_cons isBlank_dot]

end Text

/-! ## Cutting off the group -/

namespace Registry

variable {r : Registry} {name : List Char}

theorem withoutGroup_of_foreign (h : ¬ r.group.toList ++ ['.'] <+: name) :
    r.withoutGroup name = name := by
  have hdrop : Text.dropStart? (r.group.toList ++ ['.']) name = none :=
    Option.eq_none_iff_forall_ne_some.mpr fun rest hrest =>
      h ⟨rest, (Text.dropStart?_eq_some.mp hrest).symm⟩
  rw [withoutGroup, hdrop, Option.getD_none]

theorem withoutGroup_isSuffix (r : Registry) (name : List Char) : r.withoutGroup name <:+ name := by
  by_cases h : r.group.toList ++ ['.'] <+: name
  · obtain ⟨rest, rfl⟩ := h
    rw [List.append_assoc, List.singleton_append, withoutGroup_append_dot]
    exact ⟨r.group.toList ++ ['.'], by simp⟩
  · simp only [withoutGroup_of_foreign h, List.suffix_rfl]

theorem withoutGroup_eq_self : r.withoutGroup name = name ↔ ¬ r.group.toList ++ ['.'] <+: name := by
  refine ⟨fun h hprefix => ?_, withoutGroup_of_foreign⟩
  obtain ⟨rest, rfl⟩ := hprefix
  rw [List.append_assoc, List.singleton_append, withoutGroup_append_dot] at h
  have hlen := congrArg List.length h
  rw [List.length_append, List.length_cons] at hlen
  omega

/-- A text is its own subgroup exactly when neither a blank nor the group is cut off. -/
theorem withoutGroup_trimChars_eq : r.withoutGroup (Text.trimChars name) = name ↔
    Text.trimChars name = name ∧ ¬ r.group.toList ++ ['.'] <+: name := by
  constructor
  · intro h
    have hcut := (r.withoutGroup_isSuffix (Text.trimChars name)).length_le
    rw [h] at hcut
    have htrim := (Text.trimChars_sublist name).eq_of_length_le hcut
    rw [htrim] at h
    exact ⟨htrim, withoutGroup_eq_self.mp h⟩
  · rintro ⟨htrim, hprefix⟩
    rw [htrim, withoutGroup_of_foreign hprefix]

/-- A blank that is cut off in front of the group hides the group. -/
theorem not_isPrefix_of_head {c : Char} {g : List Char} (hc : Text.isBlank c = true) :
    ¬ (c :: g) ++ ['.'] <+: Text.trimChars name := by
  rintro ⟨rest, hrest⟩
  have hfirst := List.head?_dropWhile_not Text.isBlank name
  have hcut : Text.trimChars name <+: name.dropWhile Text.isBlank :=
    Text.dropWhileEnd_isPrefix _ _
  obtain ⟨t, ht⟩ := hcut
  rw [← ht, ← hrest] at hfirst
  simp [hc] at hfirst

/-- A subgroup is found behind its group exactly when no blank in front of the group and none behind
the subgroup is cut off. -/
theorem withoutGroup_trimChars_append_eq {sub : List Char} :
    r.withoutGroup (Text.trimChars (r.group.toList ++ '.' :: sub)) = sub ↔
      (∀ c ∈ r.group.toList.head?, Text.isBlank c = false) ∧
      ∀ c ∈ sub.getLast?, Text.isBlank c = false := by
  by_cases hgroup : ∀ c ∈ r.group.toList.head?, Text.isBlank c = false
  · rw [Text.trimChars_append_dot, Text.dropWhile_of_head hgroup, withoutGroup_append_dot,
      Text.dropWhileEnd_eq_self, and_iff_right hgroup]
  · refine iff_of_false (fun h => ?_) fun h => hgroup h.1
    obtain ⟨c, g, hg, hc⟩ : ∃ c g, r.group.toList = c :: g ∧ Text.isBlank c = true := by
      cases hg : r.group.toList with
      | nil => simp [hg] at hgroup
      | cons c g => exact ⟨c, g, rfl, by simpa [hg] using hgroup⟩
    have hprefix : ¬ r.group.toList ++ ['.'] <+: Text.trimChars (r.group.toList ++ '.' :: sub) :=
      hg ▸ not_isPrefix_of_head hc
    -- The whole trimmed text is the subgroup then, and it is longer than the one that was written.
    rw [withoutGroup_of_foreign hprefix, Text.trimChars_append_dot] at h
    have hlast : ∀ c ∈ sub.getLast?, Text.isBlank c = false := by
      rw [← h]
      exact Text.getLast_append_dot (Text.getLast_dropWhileEnd _ _)
    rw [Text.dropWhileEnd_of_getLast hlast] at h
    have hlen := congrArg List.length h
    rw [List.length_append, List.length_cons] at hlen
    omega

/-! ## Tests that are selected -/

/-- In a registry of the group in which nothing is selected and nothing has run, the specification
selects this test and no other. -/
def SelectsOnly (group spec : String) (test : Identity) : Prop :=
  ∃ r, (ofGroup group).select spec = (.ok test, r) ∧ r.selective = true ∧
    (∀ k, k ∈ r.selection ↔ k = test.key) ∧ r.haveRun = KeySet.empty

theorem selectsOnly_iff {group spec sub : String} {n : Nat}
    (h : (ofGroup group).readSpec spec = .ok (sub, n)) {test : Identity} :
    SelectsOnly group spec test ↔ test = ⟨group, sub, n⟩ := by
  have hselect : (ofGroup group).select spec =
      (.ok ⟨group, sub, n⟩, (ofGroup group).choose (sub, n)) := by
    rw [select, h]
    rfl
  constructor
  · rintro ⟨r, hr, -⟩
    rw [hselect] at hr
    cases hr
    rfl
  · rintro rfl
    refine ⟨_, hselect, rfl, fun k => ?_, rfl⟩
    simp [choose, ofGroup, Identity.key]

end Registry

namespace Identity

/-- The name without the group. -/
def keyText (test : Identity) : String := test.subgroup ++ "." ++ Text.showNat test.number

theorem keyText_toList (test : Identity) :
    test.keyText.toList = test.subgroup.toList ++ '.' :: Text.natChars test.number := by
  simp [keyText, Text.showNat]

end Identity

namespace Registry

variable {test : Identity} {spec : String} {cs : List Char}

/-- A specification with the number of the test selects the test if it is read as its subgroup. -/
theorem selectsOnly_self_iff
    (h : (ofGroup test.group).readSpec spec = .ok (String.ofList cs, test.number)) :
    SelectsOnly test.group spec test ↔ cs = test.subgroup.toList := by
  obtain ⟨group, sub, n⟩ := test
  rw [selectsOnly_iff h, Identity.mk.injEq]
  simp only [true_and, and_true]
  constructor
  · rintro rfl
    exact String.toList_ofList.symm
  · rintro rfl
    exact String.ofList_toList.symm

/-- And if it does not select the test, it selects one of another subgroup. -/
theorem selectsOnly_other
    (h : (ofGroup test.group).readSpec spec = .ok (String.ofList cs, test.number))
    (hnot : ¬ SelectsOnly test.group spec test) :
    ∃ sub, sub ≠ test.subgroup ∧ SelectsOnly test.group spec ⟨test.group, sub, test.number⟩ := by
  refine ⟨String.ofList cs, fun hsub => ?_, (selectsOnly_iff h).mpr rfl⟩
  have hcs : cs = test.subgroup.toList := by rw [← hsub, String.toList_ofList]
  exact hnot ((selectsOnly_self_iff h).mpr hcs)

theorem readSpec_keyText {r : Registry} (hn : test.number < 10 ^ Text.maxDigits) :
    r.readSpec test.keyText =
      .ok (String.ofList (r.withoutGroup (Text.trimChars test.subgroup.toList)), test.number) :=
  readSpec_append_natChars (Identity.keyText_toList test) hn

/-- **The tests that are selected by their names and by their keys**: a name selects its own test
exactly when no blank is in front of its group and none behind its subgroup, the name without the group
exactly when the subgroup neither begins nor ends with a blank and does not begin with the group and a
dot.  In any other case a test of another subgroup is selected. -/
theorem selectsOnly_written_iff (hn : test.number < 10 ^ Text.maxDigits) :
    (SelectsOnly test.group test.name test ↔
      ¬ Text.StartsBlank test.group ∧ ¬ Text.EndsBlank test.subgroup) ∧
    (SelectsOnly test.group test.keyText test ↔
      ¬ Text.StartsBlank test.subgroup ∧ ¬ Text.EndsBlank test.subgroup ∧
      ¬ (test.group ++ ".").toList <+: test.subgroup.toList) ∧
    ∀ spec ∈ [test.name, test.keyText], ¬ SelectsOnly test.group spec test →
      ∃ sub, sub ≠ test.subgroup ∧ SelectsOnly test.group spec ⟨test.group, sub, test.number⟩ := by
  have hname := readSpec_name (r := ofGroup test.group) hn
  have hkey := readSpec_keyText (r := ofGroup test.group) hn
  refine ⟨?_, ?_, ?_⟩
  · rw [selectsOnly_self_iff hname, Text.not_startsBlank, Text.not_endsBlank]
    exact withoutGroup_trimChars_append_eq (r := ofGroup test.group)
  · rw [selectsOnly_self_iff hkey, withoutGroup_trimChars_eq, Text.trimChars_eq_self,
      Text.not_startsBlank, Text.not_endsBlank, String.toList_append, and_assoc]
    exact Iff.rfl
  · intro spec hspec hnot
    rcases List.mem_cons.mp hspec with rfl | hspec
    · exact selectsOnly_other hname hnot
    · rcases List.mem_singleton.mp hspec with rfl
      exact selectsOnly_other hkey hnot

/-- A subgroup that begins with its group: the test is selected by its name, and another one by what
is left of the name without the group. -/
theorem selectsOnly_written_of_nested :
    SelectsOnly "g" "g.g.s.7" ⟨"g", "g.s", 7⟩ ∧ ¬ SelectsOnly "g" "g.s.7" ⟨"g", "g.s", 7⟩ := by
  have hn : 7 < 10 ^ Text.maxDigits := Nat.lt_of_lt_of_le (by decide : 7 < 10 ^ 1)
    (Nat.pow_le_pow_right (by decide) (by decide))
  have hname : (⟨"g", "g.s", 7⟩ : Identity).name = "g.g.s.7" := by decide +kernel
  have hkey : (⟨"g", "g.s", 7⟩ : Identity).keyText = "g.s.7" := by decide +kernel
  obtain ⟨h₁, h₂, -⟩ := @selectsOnly_written_iff ⟨"g", "g.s", 7⟩ hn
  rw [hname, Text.not_startsBlank, Text.not_endsBlank] at h₁
  rw [hkey] at h₂
  refine ⟨h₁.mpr ⟨by rintro c ⟨⟩; rfl, by rintro c ⟨⟩; rfl⟩, fun h => ?_⟩
  exact (h₂.mp h).2.2 (by decide)

end Registry

end TestRig
