import TestRig.Proofs.Reading

/-!
# TestRig.Proofs.Spelling — words that are read by themselves

Some words of a command line are read in the same way wherever they stand: a flag, or an option with
a value behind it that does not look like an option.  Others make every command line wrong that has
only options in front of them: an option with a value that is taken for something else, or with a
value that is no value of it.

* `Options.Spells`: words that are read as some uses of options, whatever follows.
* `Options.fault_of_broken`: an option whose value is no value.
* `Configuration.Does` and `Configuration.Spoils`: what words do to a configuration, or that they make
  the command line wrong.
* `Configuration.Settles`: one or the other, with a condition for the first.  Words that settle what
  is done can be put together (`Settles.append`).
-/

namespace TestRig

namespace Options

variable {α : Type} {g : Grammar α} {ws vs rest : List Word} {us ts : List (Use α)} {w v : Word}
  {e : Entry α} {n : List Char}

/-! ## Words that are read as uses -/

theorem withUses_withUses (r : Reading α) :
    (r.withUses ts).withUses us = r.withUses (us ++ ts) := by
  simp [Reading.withUses]

/-- The words are marked and read by themselves: as these uses of options. -/
def Spells (g : Grammar α) (ws : List Word) (us : List (Use α)) : Prop :=
  ∃ M : List (Marked α), (∀ rest, markAll g (ws ++ rest) = (markAll g rest).map (M ++ ·)) ∧
    ∀ stops N, readMarked g stops (M ++ N) = (readMarked g stops N).withUses us

theorem Spells.nil : Spells g [] [] := by
  refine ⟨[], fun rest => ?_, fun stops N => rfl⟩
  show markAll g rest = (markAll g rest).map fun M => M
  cases markAll g rest <;> rfl

theorem Spells.append (h : Spells g ws us) (h' : Spells g vs ts) :
    Spells g (ws ++ vs) (us ++ ts) := by
  obtain ⟨M, hM, hread⟩ := h
  obtain ⟨M', hM', hread'⟩ := h'
  refine ⟨M ++ M', fun rest => ?_, fun stops N => ?_⟩
  · rw [List.append_assoc, hM, hM']
    cases markAll g rest with
    | error m => rfl
    | ok N => exact congrArg Except.ok (List.append_assoc M M' N).symm
  · rw [List.append_assoc, hread, hread', withUses_withUses]

theorem markAll_option (hw : mark g w = .ok (.option e n none)) (rest : List Word) :
    markAll g (w :: rest) = (markAll g rest).map ((w, .option e n none) :: ·) := by
  rw [markAll, hw]
  cases markAll g rest <;> rfl

theorem markAll_value (hv : mark g v = .ok .value) (rest : List Word) :
    markAll g (v :: rest) = (markAll g rest).map ((v, .value) :: ·) := by
  rw [markAll, hv]
  cases markAll g rest <;> rfl

/-- A flag. -/
theorem Spells.flag (hw : mark g w = .ok (.option e n none)) (he : e.isValued = false) :
    Spells g [w] [⟨e, none⟩] := by
  refine ⟨[(w, .option e n none)], fun rest => markAll_option hw rest, fun stops N => ?_⟩
  simp [readMarked, unmergeMark, he, Unmerged.flagUses]

/-- An option with its value behind it. -/
theorem Spells.valued (hw : mark g w = .ok (.option e n none)) (he : e.isValued = true)
    (hv : mark g v = .ok .value) : Spells g [w, v] [⟨e, v⟩] := by
  refine ⟨[(w, .option e n none), (v, .value)], fun rest => ?_, fun stops N => ?_⟩
  · show markAll g (w :: v :: rest) = _
    rw [markAll_option hw, markAll_value hv]
    cases markAll g rest <;> rfl
  · simp [readMarked, unmergeMark, he, Unmerged.flagUses]

theorem Spells.read (h : Spells g ws us) (stops : Bool) :
    Options.read g stops ws = { uses := us } := by
  obtain ⟨M, hM, hread⟩ := h
  have hmark : markAll g ws = .ok M := by
    have hnil := hM []
    rw [List.append_nil] at hnil
    rw [hnil]
    exact congrArg Except.ok (List.append_nil M)
  have hmarked := hread stops []
  rw [List.append_nil] at hmarked
  simp only [Options.read, hmark, hmarked, readMarked, Reading.withUses, List.append_nil]

/-! ## Options without their values -/

/-- Options in front of other words are read first, unless those cannot be marked. -/
theorem Spells.read_append (h : Spells g ws us) (stops : Bool) (rest : List Word) :
    (∃ m, Options.read g stops rest = { fault := some m } ∧
      Options.read g stops (ws ++ rest) = { fault := some m }) ∨
    Options.read g stops (ws ++ rest) = (Options.read g stops rest).withUses us := by
  obtain ⟨M, hM, hread⟩ := h
  unfold Options.read
  rw [hM]
  cases markAll g rest with
  | error m => exact Or.inl ⟨m, rfl, rfl⟩
  | ok N => exact Or.inr (hread stops N)

/-- An option whose value is taken for something else is a fault. -/
theorem fault_of_broken (hw : mark g w = .ok (.option e n none)) (he : e.isValued = true)
    (hv : mark g v ≠ .ok .value) (rest : List Word) :
    ∃ m, Options.read g false (w :: v :: rest) = { fault := some m } := by
  unfold Options.read
  rw [markAll_option hw]
  cases hrest : markAll g (v :: rest) with
  | error m => exact ⟨m, rfl⟩
  | ok N =>
    obtain ⟨m, hm, hM⟩ := markAll_cons_eq_ok.mp hrest
    have hne : m ≠ .value := fun hmv => hv (hmv ▸ hm)
    obtain ⟨r, rfl⟩ : ∃ r, N = (v, m) :: r := by
      rcases hM with ⟨rfl, rfl⟩ | ⟨-, M', -, rfl⟩
      · exact ⟨_, rfl⟩
      · exact ⟨_, rfl⟩
    refine ⟨.noValue e.title, ?_⟩
    cases m with
    | value => exact absurd rfl hne
    | _ => simp [Except.map, readMarked, unmergeMark, he]

/-- Only a word that begins with a dash can be anything but a value. -/
theorem mark_of_no_dash (h : ∀ s ∈ v, s.toList.head? ≠ some '-') : mark g v = .ok .value := by
  cases v with
  | none => rfl
  | some s =>
    have hs := h s rfl
    unfold mark
    dsimp only
    split
    · rename_i hcs
      rw [hcs] at hs
      exact absurd rfl hs
    · rename_i hcs
      rw [hcs] at hs
      exact absurd rfl hs
    · rfl

end Options

namespace Configuration

open Options (Spells Word)

variable {ws vs : List Word} {f f' : Configuration → Configuration} {program : Path}

/-! ## What words do to a configuration -/

/-- The words are options by themselves, and this is what they do to a configuration. -/
def Does (ws : List Word) (f : Configuration → Configuration) : Prop :=
  ∃ us, Spells grammar ws us ∧ ∀ c, us.foldlM apply c = .ok (f c)

/-- The words make every command line wrong that has only options in front of them. -/
def Spoils (ws : List Word) : Prop :=
  ∀ front f rest program, Does front f →
    ∃ m, ofWords program (front ++ (ws ++ rest)) = .error (.misuse m)

/-- One or the other: the words do something, or else they make every command line wrong, which under
the condition they do not. -/
def Settles (condition : Prop) (ws : List Word) (f : Configuration → Configuration) : Prop :=
  Does ws f ∨ ¬ condition ∧ Spoils ws

variable {p q : Prop}

theorem Does.nil : Does [] id := ⟨[], Spells.nil, fun _ => rfl⟩

theorem Does.append (h : Does ws f) (h' : Does vs f') : Does (ws ++ vs) (f' ∘ f) := by
  obtain ⟨us, hspells, hact⟩ := h
  obtain ⟨ts, hspells', hact'⟩ := h'
  refine ⟨us ++ ts, hspells.append hspells', fun c => ?_⟩
  rw [List.foldlM_append, hact]
  exact hact' (f c)

theorem Does.ofWords (h : Does ws f) : ofWords program ws = .ok (f { program }) := by
  obtain ⟨us, hspells, hact⟩ := h
  rw [ofWords_eq_ok, hspells.read]
  exact ⟨⟨rfl, rfl⟩, hact _⟩

theorem Spoils.ofWords (h : Spoils ws) : ∃ m, ofWords program ws = .error (.misuse m) := by
  simpa using h [] id [] program Does.nil

theorem Spoils.append (h : Spoils ws) (vs : List Word) : Spoils (ws ++ vs) := by
  intro front f rest program hfront
  rw [List.append_assoc]
  exact h front f (vs ++ rest) program hfront

theorem Does.spoils (h : Does ws f) (hs : Spoils vs) : Spoils (ws ++ vs) := by
  intro front f rest program hfront
  obtain ⟨m, hm⟩ := hs (front ++ ws) _ rest program (hfront.append h)
  exact ⟨m, by rw [← hm, List.append_assoc, List.append_assoc]⟩

theorem Settles.append (h : Settles p ws f) (h' : Settles q vs f') :
    Settles (p ∧ q) (ws ++ vs) (f' ∘ f) := by
  rcases h with h | ⟨hp, h⟩
  · rcases h' with h' | ⟨hq, h'⟩
    · exact Or.inl (h.append h')
    · exact Or.inr ⟨fun hpq => hq hpq.2, h.spoils h'⟩
  · exact Or.inr ⟨fun hpq => hp hpq.1, h.append vs⟩

theorem Settles.mono (h : Settles p ws f) (hqp : q → p) : Settles q ws f :=
  h.imp id fun h => ⟨fun hq => h.1 (hqp hq), h.2⟩

theorem Settles.spoils (h : Settles p ws f) (hs : Spoils vs) : Spoils (ws ++ vs) :=
  h.elim (fun h => h.spoils hs) fun h => h.2.append vs

/-! ## Single options -/

variable {w v : Word} {e : Options.Entry Setting} {n : List Char}

/-- A command line of which the options in front are acted on and then something is wrong. -/
theorem ofWords_of_fault {us : List (Options.Use Setting)} {c : Configuration}
    {r : Options.Reading Setting} {m : Options.Misuse} (hread : Options.read grammar false ws = r)
    (huses : r.uses = us) (hact : us.foldlM apply { program } = .ok c) (hfault : r.fault = some m) :
    ofWords program ws = .error (.misuse m) := by
  simp only [ofWords, Options.Reading.act, hread, huses, hact, hfault]
  rfl

theorem does_flag (hw : Options.mark grammar w = .ok (.option e n none)) (he : e.isValued = false)
    (hact : ∀ c, apply c ⟨e, none⟩ = .ok (f c)) : Does [w] f := by
  refine ⟨_, Spells.flag hw he, fun c => ?_⟩
  rw [List.foldlM_cons, hact]
  rfl

/-- An option whose value is taken for something else. -/
theorem spoils_of_mark (hw : Options.mark grammar w = .ok (.option e n none))
    (he : e.isValued = true) (hv : Options.mark grammar v ≠ .ok .value) : Spoils [w, v] := by
  rintro front f rest program ⟨us, hspells, hact⟩
  obtain ⟨m, hbroken⟩ := Options.fault_of_broken hw he hv rest
  rcases hspells.read_append false ([w, v] ++ rest) with ⟨m', -, hread⟩ | hread
  · exact ⟨m', ofWords_of_fault hread rfl rfl rfl⟩
  · rw [List.cons_append, List.cons_append, List.nil_append, hbroken] at hread
    exact ⟨m, ofWords_of_fault hread (List.append_nil us) (hact _) rfl⟩

-- A value with a dash has to be joined to its option; behind it, it is taken for an option itself.
example : (ofArgv ["t", "-A-x=1"]).isOk = true ∧ (ofArgv ["t", "-A", "-x=1"]).isOk = false := by
  decide +kernel

/-- An option whose value is no value of it. -/
theorem spoils_valued (hw : Options.mark grammar w = .ok (.option e n none))
    (he : e.isValued = true) {m : Options.Misuse}
    (hact : ∀ c, apply c ⟨e, v⟩ = .error (.misuse m)) : Spoils [w, v] := by
  by_cases hv : Options.mark grammar v = .ok .value
  · rintro front f rest program ⟨us, hspells, hfront⟩
    have hboth := (hspells.append (Spells.valued hw he hv)).read_append false rest
    rw [List.append_assoc] at hboth
    rcases hboth with ⟨m', -, hread⟩ | hread
    · exact ⟨m', ofWords_of_fault hread rfl rfl rfl⟩
    · refine ⟨m, ?_⟩
      simp only [Configuration.ofWords, Options.Reading.act, hread, Options.Reading.withUses,
        List.foldlM_append, hfront, List.foldlM_cons, hact, bind, Except.bind]
  · exact spoils_of_mark hw he hv

/-- The text does not begin with a dash. -/
def Undashed (s : String) : Prop := s.toList.head? ≠ some '-'

instance (s : String) : Decidable (Undashed s) := inferInstanceAs (Decidable (_ ≠ _))

theorem Undashed.mark {α : Type} {s : String} (h : Undashed s) (g : Options.Grammar α) :
    Options.mark g (some s) = .ok .value :=
  Options.mark_of_no_dash fun _ hs => Option.some.inj hs ▸ h

/-- An option with a value: only a dash can make it wrong. -/
theorem settles_valued (hw : Options.mark grammar w = .ok (.option e n none))
    (he : e.isValued = true) (hact : ∀ c, apply c ⟨e, v⟩ = .ok (f c)) :
    Settles (∀ s ∈ v, Undashed s) [w, v] f := by
  by_cases hv : Options.mark grammar v = .ok .value
  · refine Or.inl ⟨_, Spells.valued hw he hv, fun c => ?_⟩
    rw [List.foldlM_cons, hact]
    rfl
  · exact Or.inr ⟨fun h => hv (Options.mark_of_no_dash h), spoils_of_mark hw he hv⟩

theorem settles_text {s : String} (hw : Options.mark grammar w = .ok (.option e n none))
    (he : e.isValued = true) (hact : ∀ c, apply c ⟨e, some s⟩ = .ok (f c)) :
    Settles (Undashed s) [w, some s] f :=
  (settles_valued hw he hact).mono fun h _ hs => Option.some.inj hs ▸ h

end Configuration

end TestRig
