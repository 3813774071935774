import TestRig.Path

/-!
# TestRig.Proofs.Paths — a path is read back from its text

* `Text.splitAt_joinWith`: pieces that are joined are cut apart again.
* `Path.Plain`: what every path that has been read is like.
* `Path.ofString_text_ofString`: the text of such a path is read as that path.
-/

namespace TestRig

namespace Text

variable {c : Char}

theorem splitAt_of_not_mem : ∀ {p : List Char}, c ∉ p → splitAt c p = [p]
  | [], _ => rfl
  | d :: p, h => by
    rw [List.mem_cons, not_or] at h
    rw [splitAt, if_neg (Ne.symm h.1), splitAt_of_not_mem h.2]

theorem splitAt_append {r : List Char} : ∀ {p : List Char}, c ∉ p →
    splitAt c (p ++ c :: r) = p :: splitAt c r
  | [], _ => by rw [List.nil_append, splitAt, if_pos rfl]
  | d :: p, h => by
    rw [List.mem_cons, not_or] at h
    rw [List.cons_append, splitAt, if_neg (Ne.symm h.1), splitAt_append h.2]

theorem not_mem_of_mem_splitAt : ∀ {cs p : List Char}, p ∈ splitAt c cs → c ∉ p
  | [], p, h => by
    rw [List.mem_singleton.mp h]
    exact List.not_mem_nil
  | d :: cs, p, h => by
    rw [splitAt] at h
    split at h
    · rcases List.mem_cons.mp h with rfl | h
      · exact List.not_mem_nil
      · exact not_mem_of_mem_splitAt h
    · rename_i hd
      cases hs : splitAt c cs with
      | nil => exact absurd hs (splitAt_ne_nil c cs)
      | cons q qs =>
        have hrest : ∀ p' ∈ q :: qs, c ∉ p' := fun p' hp' => not_mem_of_mem_splitAt (hs ▸ hp')
        rw [hs] at h
        rcases List.mem_cons.mp h with rfl | h
        · rw [List.mem_cons, not_or]
          exact ⟨Ne.symm hd, hrest q List.mem_cons_self⟩
        · exact hrest p (List.mem_cons_of_mem _ h)

/-- Pieces that are joined are cut apart again. -/
theorem splitAt_joinWith : ∀ {ps : List (List Char)}, ps ≠ [] → (∀ p ∈ ps, c ∉ p) →
    splitAt c (joinWith [c] ps) = ps
  | [], hne, _ => absurd rfl hne
  | [p], _, h => splitAt_of_not_mem (h p List.mem_cons_self)
  | p :: q :: ps, _, h => by
    have hrest : splitAt c (joinWith [c] (q :: ps)) = q :: ps :=
      splitAt_joinWith (by simp) fun r hr => h r (List.mem_cons_of_mem _ hr)
    rw [joinWith, List.append_assoc, List.singleton_append,
      splitAt_append (h p List.mem_cons_self), hrest]

theorem joinWith_eq_intercalate (sep : List Char) : ∀ ps : List (List Char),
    joinWith sep ps = sep.intercalate ps
  | [] => rfl
  | [p] => by rw [joinWith, List.intercalate_singleton]
  | p :: q :: ps => by
    rw [joinWith, joinWith_eq_intercalate sep (q :: ps), List.intercalate_cons_cons]

end Text

namespace Path

/-- A root is one of three; a part is no empty text and no dot, and holds no slash. -/
structure Plain (p : Path) : Prop where
  root : p.root = "" ∨ p.root = "/" ∨ p.root = "//"
  parts : ∀ part ∈ p.parts, part.toList ≠ [] ∧ part.toList ≠ ['.'] ∧ '/' ∉ part.toList

theorem rootOf_cases (cs : List Char) : rootOf cs = "" ∨ rootOf cs = "/" ∨ rootOf cs = "//" := by
  unfold rootOf
  split <;> simp

theorem plain_ofString (s : String) : (ofString s).Plain := by
  refine ⟨rootOf_cases _, fun part hpart => ?_⟩
  obtain ⟨cs, hcs, rfl⟩ := List.mem_map.mp hpart
  obtain ⟨hmem, hkept⟩ := List.mem_filter.mp hcs
  rw [String.toList_ofList]
  simp only [Bool.and_eq_true, bne_iff_ne] at hkept
  exact ⟨hkept.1, hkept.2, Text.not_mem_of_mem_splitAt hmem⟩

/-- Slashes at the beginning are the root, and add no parts. -/
theorem ofString_of_toList {s : String} {root : String} {ps : List (List Char)}
    (hroot : root = "" ∨ root = "/" ∨ root = "//") (hne : ps ≠ [])
    (hps : ∀ p ∈ ps, p ≠ [] ∧ p ≠ ['.'] ∧ '/' ∉ p)
    (hs : s.toList = root.toList ++ Text.joinWith ['/'] ps) :
    ofString s = ⟨root, ps.map String.ofList⟩ := by
  have hsplit := Text.splitAt_joinWith hne fun p hp => (hps p hp).2.2
  have hkept : (ps.filter fun p => p != [] && p != ['.']) = ps := by
    refine List.filter_eq_self.mpr fun p hp => ?_
    simp [(hps p hp).1, (hps p hp).2.1]
  -- the first part begins with a character that is no slash
  obtain ⟨c, r, hbody, hc⟩ : ∃ c r, Text.joinWith ['/'] ps = c :: r ∧ c ≠ '/' := by
    obtain ⟨p, qs, rfl⟩ := List.exists_cons_of_ne_nil hne
    obtain ⟨c, p, rfl⟩ := List.exists_cons_of_ne_nil (hps p List.mem_cons_self).1
    have hc : c ≠ '/' := by
      have hslash := (hps _ List.mem_cons_self).2.2
      simp only [List.mem_cons, not_or] at hslash
      exact Ne.symm hslash.1
    cases qs with
    | nil => exact ⟨c, p, rfl, hc⟩
    | cons q qs => exact ⟨c, _, rfl, hc⟩
  unfold ofString
  rw [hs]
  rcases hroot with rfl | rfl | rfl
  · have hr : rootOf ("".toList ++ Text.joinWith ['/'] ps) = "" := by
      rw [hbody]
      simp [rootOf, hc]
    rw [hr]
    simp [hsplit, hkept]
  · have hr : rootOf ("/".toList ++ Text.joinWith ['/'] ps) = "/" := by
      rw [hbody]
      simp [rootOf, hc]
    rw [hr]
    simp [Text.splitAt, hsplit, hkept]
  · have hr : rootOf ("//".toList ++ Text.joinWith ['/'] ps) = "//" := by
      rw [hbody]
      simp [rootOf, hc]
    rw [hr]
    simp [Text.splitAt, hsplit, hkept]

theorem ofString_text {p : Path} (h : p.Plain) : ofString p.text = p := by
  obtain ⟨root, parts⟩ := p
  by_cases hparts : parts = []
  · subst hparts
    rcases h.root with hr | hr | hr <;>
    · cases hr
      decide +kernel
  · have htext : (Path.text ⟨root, parts⟩).toList =
        root.toList ++ Text.joinWith ['/'] (parts.map String.toList) := by
      simp [text, hparts, Text.joinWith_eq_intercalate]
    have hread := ofString_of_toList h.root (by simpa using hparts)
      (by simpa using h.parts) htext
    simpa [Function.comp_def] using hread

/-- **A path is read back from its text.** -/
theorem ofString_text_ofString (s : String) : ofString (ofString s).text = ofString s :=
  ofString_text (plain_ofString s)

end Path

end TestRig
