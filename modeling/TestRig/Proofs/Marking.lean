import TestRig.Proofs.Spelling

/-!
# TestRig.Proofs.Marking — the ways to write an option

In a grammar with proper names every way to write an option is marked as that option, with the text
that is joined to it.

* `Grammar.Proper`: names are distinct, a short one is a dash and a letter, a long one begins with two
  dashes and has no equals sign.
* `Denotes`: a word is a name of an option, or begins no other name and one long name of it.
* `Denotes.mark`: such a word, alone or with a text behind an equals sign.
* `Grammar.Proper.mark_attached`: a text directly behind a short name.
* `Spells.joined`, `Spells.merged`: how these are read.
-/

namespace TestRig.Options

variable {α : Type} {g : Grammar α} {e : Entry α} {n a v : List Char} {w : String} {c : Char}

/-! ## Proper names -/

/-- A dash and a letter, or two dashes and a text without an equals sign. -/
def isProperName : List Char → Bool
  | ['-', c] => c != '-' && c != '='
  | '-' :: '-' :: c :: r => !(c :: r).contains '='
  | _ => false

/-- The names are proper and distinct. -/
structure Grammar.Proper (g : Grammar α) : Prop where
  distinct : (g.names.map Prod.fst).Nodup
  proper : ∀ p ∈ g.names, isProperName p.1 = true

theorem isProperName_cases (h : isProperName n = true) :
    (∃ c, n = ['-', c] ∧ c ≠ '-' ∧ c ≠ '=') ∨
    ∃ c r, n = '-' :: '-' :: c :: r ∧ '=' ∉ c :: r := by
  unfold isProperName at h
  split at h
  · simp only [Bool.and_eq_true, bne_iff_ne] at h
    exact Or.inl ⟨_, rfl, h⟩
  · refine Or.inr ⟨_, _, rfl, ?_⟩
    simpa using h
  · cases h

theorem equals_not_mem_of_isProperName (h : isProperName n = true) : '=' ∉ n := by
  rcases isProperName_cases h with ⟨c, rfl, -, hc⟩ | ⟨c, r, rfl, hr⟩
  · simp [hc.symm]
  · simpa using hr

/-! ## Looking names up -/

theorem lookup_of_mem {κ β : Type} [BEq κ] [LawfulBEq κ] {k : κ} {b : β} :
    ∀ {l : List (κ × β)}, (l.map Prod.fst).Nodup → (k, b) ∈ l → l.lookup k = some b
  | (k', b') :: l, hl, h => by
    obtain ⟨hfresh, hl⟩ := List.nodup_cons.mp hl
    rcases List.mem_cons.mp h with h | h
    · cases h
      exact List.lookup_cons_self
    · have hne : (k == k') = false := by
        refine beq_eq_false_iff_ne.mpr fun heq => hfresh ?_
        exact List.mem_map.mpr ⟨_, h, heq⟩
      rw [List.lookup_cons, hne]
      exact lookup_of_mem hl h

theorem Grammar.Proper.find?_of_mem (hg : g.Proper) (h : (n, e) ∈ g.names) : g.find? n = some e :=
  lookup_of_mem hg.distinct h

theorem Grammar.find?_eq_none (h : ∀ e, (n, e) ∉ g.names) : g.find? n = none := by
  rw [Grammar.find?, List.lookup_eq_none_iff]
  rintro ⟨n', e⟩ hmem
  rw [bne_iff_ne]
  rintro rfl
  exact h e hmem

/-- A condition that is met for one key at most picks out one entry at most. -/
theorem length_filterMap_le_one {β γ κ : Type} {f : β → Option γ} {key : β → κ} {k : κ} :
    ∀ {l : List β}, (l.map key).Nodup → (∀ p ∈ l, (f p).isSome = true → key p = k) →
      (l.filterMap f).length ≤ 1
  | [], _, _ => Nat.zero_le 1
  | p :: l, hl, h => by
    obtain ⟨hfresh, hl⟩ := List.nodup_cons.mp hl
    have hrest := fun q hq => h q (List.mem_cons_of_mem p hq)
    cases hp : f p with
    | none =>
      rw [List.filterMap_cons_none hp]
      exact length_filterMap_le_one hl hrest
    | some y =>
      have hk : key p = k := h p List.mem_cons_self (by rw [hp]; rfl)
      have hnone : l.filterMap f = [] := by
        refine List.filterMap_eq_nil_iff.mpr fun q hq => ?_
        cases hq' : f q with
        | none => rfl
        | some z =>
          have hkq : key q = k := hrest q hq (by rw [hq']; rfl)
          exact absurd (List.mem_map.mpr ⟨q, hq, hkq.trans hk.symm⟩) hfresh
      rw [List.filterMap_cons_some hp, hnone]
      exact Nat.le_refl 1

/-- One entry of a list with distinct keys is picked out by a condition that no other one meets. -/
theorem filterMap_eq_singleton {κ β γ : Type} {f : κ × β → Option γ} {p : κ × β} {y : γ}
    {l : List (κ × β)} (hl : (l.map Prod.fst).Nodup) (hp : p ∈ l) (hy : f p = some y)
    (hothers : ∀ q ∈ l, q.1 ≠ p.1 → f q = none) : l.filterMap f = [y] := by
  have hlength : (l.filterMap f).length ≤ 1 := by
    refine length_filterMap_le_one hl (k := p.1) fun q hq hsome => ?_
    refine Classical.byContradiction fun hne => ?_
    rw [hothers q hq hne] at hsome
    cases hsome
  have hmem : y ∈ l.filterMap f := List.mem_filterMap.mpr ⟨p, hp, hy⟩
  match hf : l.filterMap f, hlength, hmem with
  | [z], _, hmem => rw [List.mem_singleton.mp hmem]

theorem Grammar.Proper.find?_of_equals (hg : g.Proper) (h : '=' ∈ n) : g.find? n = none :=
  Grammar.find?_eq_none fun _ hmem => equals_not_mem_of_isProperName (hg.proper _ hmem) h

/-! ## Names and their beginnings -/

/-- A word is a name of an option, or begins one long name of it and no other name. -/
inductive Denotes (g : Grammar α) (e : Entry α) (a : List Char) : Prop
  | name (h : (a, e) ∈ g.names)
  | abbreviation {n : List Char} (h : (n, e) ∈ g.names) (hlong : ∃ c r, a = '-' :: '-' :: c :: r)
      (hbegins : a <+: n) (honly : ∀ p ∈ g.names, a <+: p.1 → p.1 = n)

/-- A word that begins with a dash and is no separator. -/
def IsDashed (cs : List Char) : Prop := ∃ c r, cs = '-' :: c :: r ∧ c :: r ≠ ['-']

theorem IsDashed.append (h : IsDashed a) (v : List Char) : IsDashed (a ++ v) := by
  obtain ⟨c, r, rfl, hsep⟩ := h
  refine ⟨c, r ++ v, rfl, fun heq => ?_⟩
  obtain ⟨rfl, hnil⟩ := List.cons.inj heq
  rw [(List.append_eq_nil_iff.mp hnil).1] at hsep
  exact hsep rfl

theorem mark_of_isDashed (h : IsDashed w.toList) : mark g (some w) = markDashed g w.toList := by
  obtain ⟨c, r, hcs, hsep⟩ := h
  unfold mark
  dsimp only
  rw [hcs]
  split
  · rename_i heq
    exact absurd (List.cons.inj heq).2 hsep
  · rename_i heq
    rw [heq]
  · rename_i hno
    exact absurd rfl (hno c r)

theorem isDashed_of_isProperName (h : isProperName n = true) : IsDashed n := by
  rcases isProperName_cases h with ⟨c, rfl, hc, -⟩ | ⟨c, r, rfl, -⟩
  · exact ⟨c, [], rfl, by simpa using hc⟩
  · exact ⟨'-', c :: r, rfl, by simp⟩

theorem Denotes.isDashed (hg : g.Proper) (h : Denotes g e a) : IsDashed a := by
  cases h with
  | name h => exact isDashed_of_isProperName (hg.proper _ h)
  | abbreviation h hlong =>
    obtain ⟨c, r, rfl⟩ := hlong
    exact ⟨'-', c :: r, rfl, by simp⟩

theorem Denotes.equals_not_mem (hg : g.Proper) (h : Denotes g e a) : '=' ∉ a := by
  cases h with
  | name h => exact equals_not_mem_of_isProperName (hg.proper _ h)
  | abbreviation h _ hbegins =>
    exact fun hmem => equals_not_mem_of_isProperName (hg.proper _ h) (hbegins.subset hmem)

/-- The text behind the equals sign of a word, if it has one. -/
def withText (a : List Char) : Option (List Char) → List Char
  | none => a
  | some v => a ++ '=' :: v

theorem spelled?_of_mem (hg : g.Proper) (h : (a, e) ∈ g.names) (j : Option (List Char)) :
    spelled? g (withText a j) = some (.option e a j) := by
  have ha := equals_not_mem_of_isProperName (hg.proper _ h)
  unfold spelled?
  cases j with
  | none => rw [withText, hg.find?_of_mem h]
  | some v =>
    rw [withText, hg.find?_of_equals (by simp), Text.cutFirst_append ha]
    simp only [Option.bind_eq_bind, Option.bind_some, hg.find?_of_mem h]
    rfl

theorem spelled?_eq_none (ha : '=' ∉ a) (hname : ∀ e, (a, e) ∉ g.names) (hg : g.Proper)
    (j : Option (List Char)) : spelled? g (withText a j) = none := by
  have hfind := Grammar.find?_eq_none hname
  unfold spelled?
  cases j with
  | none => rw [withText, hfind, Text.cutFirst_eq_none.mpr ha]; rfl
  | some v =>
    rw [withText, hg.find?_of_equals (by simp), Text.cutFirst_append ha]
    simp only [Option.bind_eq_bind, Option.bind_some, hfind, Option.bind_none]

/-- A word that begins one long name is taken for it. -/
theorem longCandidates_eq (hg : g.Proper) (h : (n, e) ∈ g.names) (ha : '=' ∉ a) (hbegins : a <+: n)
    (honly : ∀ p ∈ g.names, a <+: p.1 → p.1 = n) (j : Option (List Char)) :
    longCandidates g (withText a j) = [(n, e, j)] := by
  have hone : ∀ j : Option (List Char), (g.names.filterMap fun p =>
      if a.isPrefixOf p.1 then some (p.1, p.2, j) else none) = [(n, e, j)] := by
    intro j
    refine filterMap_eq_singleton hg.distinct h ?_ fun q hq hne => ?_
    · simp [hbegins]
    · have hno : ¬ a <+: q.1 := fun hpre => hne (honly q hq hpre)
      simp [hno]
  cases j with
  | none =>
    rw [longCandidates, withText, Text.cutFirst_eq_none.mpr ha]
    exact hone none
  | some v =>
    rw [longCandidates, withText, Text.cutFirst_append ha]
    exact hone (some v)

/-- A word that denotes an option, with a text behind an equals sign or without one. -/
theorem Denotes.markDashed (hg : g.Proper) (h : Denotes g e a) (j : Option (List Char)) :
    ∃ n, markDashed g (withText a j) = .ok (.option e n j) := by
  have ha := h.equals_not_mem hg
  by_cases hname : ∃ e', (a, e') ∈ g.names
  · obtain ⟨e', hmem⟩ := hname
    have he : (a, e) ∈ g.names := by
      cases h with
      | name h => exact h
      | abbreviation h _ _ honly =>
        have heq : a = _ := honly _ hmem (List.prefix_refl a)
        exact heq ▸ h
    exact ⟨a, by simp only [Options.markDashed, spelled?_of_mem hg he]⟩
  · cases h with
    | name h => exact absurd ⟨e, h⟩ hname
    | @abbreviation n hmem hlong hbegins honly =>
      obtain ⟨c, r, rfl⟩ := hlong
      have hdash : ((withText ('-' :: '-' :: c :: r) j).drop 1 |>.head? |> (· == some '-')) =
          true := by
        cases j <;> rfl
      refine ⟨n, ?_⟩
      unfold Options.markDashed
      rw [spelled?_eq_none ha (not_exists.mp hname) hg]
      dsimp only
      rw [if_pos hdash, longCandidates_eq hg hmem ha hbegins honly]

/-- **A word that denotes an option**, with a text behind an equals sign or without one, is marked as
this option. -/
theorem Denotes.mark (hg : g.Proper) (h : Denotes g e a) {j : Option (List Char)}
    (hw : w.toList = withText a j) : ∃ n, mark g (some w) = .ok (.option e n j) := by
  have hdashed : IsDashed w.toList := by
    rw [hw]
    cases j with
    | none => exact h.isDashed hg
    | some v => exact (h.isDashed hg).append _
  rw [mark_of_isDashed hdashed, hw]
  exact h.markDashed hg j

/-! ## Behind a short name -/

theorem Denotes.mem_names (h : Denotes g e ['-', c]) : (['-', c], e) ∈ g.names := by
  cases h with
  | name h => exact h
  | abbreviation _ hlong =>
    obtain ⟨c', r, heq⟩ := hlong
    cases heq

theorem Grammar.Proper.letter (hg : g.Proper) (h : (['-', c], e) ∈ g.names) : c ≠ '-' ∧ c ≠ '=' := by
  rcases isProperName_cases (hg.proper _ h) with ⟨c', hcs, hc⟩ | ⟨c', r, hcs, -⟩
  · cases hcs
    exact hc
  · cases hcs

/-- A word with one dash begins no name but the short one of its first letter. -/
theorem eq_of_begins (hn : isProperName n = true) (hc : c ≠ '-') (h : '-' :: c :: v <+: n) :
    n = ['-', c] ∧ v = [] := by
  rcases isProperName_cases hn with ⟨c', rfl, -⟩ | ⟨c', r, rfl, -⟩
  · rw [List.cons_prefix_cons, List.cons_prefix_cons] at h
    obtain ⟨-, rfl, hv⟩ := h
    exact ⟨rfl, List.prefix_nil.mp hv⟩
  · rw [List.cons_prefix_cons, List.cons_prefix_cons] at h
    exact absurd h.2.1 hc

/-- A dash and more than one letter is no name. -/
theorem Grammar.Proper.find?_of_behind (hg : g.Proper) (hc : c ≠ '-') (hv : v ≠ []) :
    g.find? ('-' :: c :: v) = none :=
  Grammar.find?_eq_none fun _ hmem =>
    hv (eq_of_begins (hg.proper _ hmem) hc (List.prefix_refl _)).2

theorem spelled?_of_behind (hg : g.Proper) (hc : c ≠ '-' ∧ c ≠ '=') (hv : v ≠ [])
    (heq : v.head? ≠ some '=') : spelled? g ('-' :: c :: v) = none := by
  unfold spelled?
  rw [hg.find?_of_behind hc.1 hv]
  cases hcut : Text.cutFirst '=' ('-' :: c :: v) with
  | none => rfl
  | some p =>
    obtain ⟨before, after⟩ := p
    -- what stands in front of the equals sign has more than one letter, too
    obtain ⟨d, r, rfl⟩ : ∃ d r, v = d :: r := List.exists_cons_of_ne_nil hv
    have hd : d ≠ '=' := by simpa using heq
    have hdash : ('-' : Char) ≠ '=' := by decide
    simp only [Text.cutFirst, hdash, hc.2, hd, if_false, Option.map_eq_some_iff, Prod.mk.injEq] at hcut
    obtain ⟨_, ⟨_, ⟨⟨before', _⟩, -, rfl⟩, rfl⟩, rfl, -⟩ := hcut
    show (g.find? ('-' :: c :: d :: before')).bind _ = none
    rw [hg.find?_of_behind hc.1 (List.cons_ne_nil _ _)]
    rfl

/-- **A text directly behind a short name** belongs to the option of that name. -/
theorem Grammar.Proper.mark_attached (hg : g.Proper) (h : (['-', c], e) ∈ g.names) (hv : v ≠ [])
    (heq : v.head? ≠ some '=') (hw : w.toList = '-' :: c :: v) :
    mark g (some w) = .ok (.option e ['-', c] (some v)) := by
  have hc := hg.letter h
  have hone : shortCandidates g ('-' :: c :: v) = [(['-', c], e, some v)] := by
    refine filterMap_eq_singleton hg.distinct h (by simp) fun q hq hne => ?_
    have htake : (q.1 == ['-', c]) = false := beq_eq_false_iff_ne.mpr hne
    have hno : ¬ '-' :: c :: v <+: q.1 := fun hpre =>
      hv (eq_of_begins (hg.proper _ hq) hc.1 hpre).2
    simp [htake, hno]
  rw [mark_of_isDashed (hw ▸ ⟨c, v, rfl, by simp [hc.1]⟩), hw]
  unfold markDashed
  rw [spelled?_of_behind hg hc hv heq]
  dsimp only
  rw [if_neg (by simpa using hc.1), hone]

/-! ## Reading what is marked -/

variable {us : List (Use α)} {fs : List (Entry α)}

/-- A word that is an option with the text joined to it. -/
theorem Spells.joined (hw : mark g (some w) = .ok (.option e n (some v))) (he : e.isValued = true)
    (hv : v ≠ ['-', '-']) : Spells g [some w] [⟨e, some (String.ofList v)⟩] := by
  have hu : unmergeMark g e n (some v) = .ok { last := e, joined := some v } := by
    cases v <;> simp [unmergeMark, unmerge, he]
  refine ⟨[(some w, .option e n (some v))], fun rest => ?_, fun stops N => ?_⟩
  · show markAll g (some w :: rest) = _
    rw [markAll, hw]
    cases markAll g rest <;> rfl
  · simp [readMarked, hu, he, Unmerged.flagUses, keptValue, hv]

/-- The letters name these flags. -/
inductive Letters (g : Grammar α) : List (Entry α) → List Char → Prop
  | nil : Letters g [] []
  | cons {f : Entry α} {fs : List (Entry α)} {c : Char} {cs : List Char}
      (h : (['-', c], f) ∈ g.names) (hf : f.isValued = false) (hrest : Letters g fs cs) :
      Letters g (f :: fs) (c :: cs)

/-- Flags in one word are taken apart into the ones in front and the last one. -/
theorem unmerge_of_letters (hg : g.Proper) {f : Entry α} (hf : f.isValued = false) {cs : List Char}
    (hl : Letters g fs cs) (hne : fs ≠ []) : ∃ u, unmerge g true f cs = .ok u ∧
      u.last.isValued = false ∧ u.flags ++ [u.last] = f :: fs := by
  induction hl generalizing f with
  | nil => exact absurd rfl hne
  | @cons f' fs c cs hmem hf' hrest ih =>
    have hfind := hg.find?_of_mem hmem
    cases hrest with
    | nil => exact ⟨{ flags := [f], last := f' }, by simp [unmerge, hf, hfind], hf', rfl⟩
    | cons h hvalued hrest =>
      obtain ⟨u, hu, hlast, hflags⟩ := ih hf' (List.cons_ne_nil _ _)
      refine ⟨{ u with flags := f :: u.flags }, ?_, hlast, by simp [hflags]⟩
      rw [unmerge, if_neg (by simp [hf]), if_pos rfl, hfind]
      dsimp only
      rw [hu]
      rfl

/-- **Flags that are merged into one word** are read as they would be apart. -/
theorem Spells.merged (hg : g.Proper) {cs : List Char} (hl : Letters g fs cs) (hne : fs ≠ [])
    (hw : w.toList = '-' :: cs) : Spells g [some w] (fs.map fun f => ⟨f, none⟩) := by
  cases hl with
  | nil => exact absurd rfl hne
  | @cons f fs c cs hmem hf hrest =>
    have hc := hg.letter hmem
    cases hrest with
    | nil =>
      obtain ⟨n, hn⟩ := (Denotes.name hmem).mark hg (j := none) hw
      exact Spells.flag hn hf
    | @cons f' fs c' cs hmem' hf' hrest =>
      have hletters : Letters g (f' :: fs) (c' :: cs) := .cons hmem' hf' hrest
      obtain ⟨u, hu, hlast, hflags⟩ := unmerge_of_letters hg hf hletters (List.cons_ne_nil _ _)
      have hattached := hg.mark_attached hmem (List.cons_ne_nil c' cs)
        (by simpa using (hg.letter hmem').2) hw
      refine ⟨[(some w, .option f ['-', c] (some (c' :: cs)))], fun rest => ?_, fun stops N => ?_⟩
      · show markAll g (some w :: rest) = _
        rw [markAll, hattached]
        cases markAll g rest <;> rfl
      · have hshort : isShort ['-', c] = true := by simp [isShort, hc.1]
        have huses : u.flagUses ++ [⟨u.last, none⟩] =
            (f :: f' :: fs).map fun f => (⟨f, none⟩ : Use α) := by
          rw [← hflags]
          simp [Unmerged.flagUses]
        simp only [List.cons_append, List.nil_append, readMarked, unmergeMark, hshort, hu, hlast,
          Bool.not_false, if_true, huses]

end TestRig.Options
