import TestRig.Configuration

/-!
# TestRig.Proofs.Reading — a flag more on a command line

A command line is first marked word by word and then read from left to right.  A word that is a flag
is read by itself, wherever it stands: if a command line with it is read at all, the command line
without it is read in the same way, and the flag adds one use.

* `Options.markAll_insert`, `Options.readMarked_insert`: the two steps, with a flag put in.
* `Configuration.ofArgv_insert`: with a flag put in anywhere, the configuration is the same but for
  what the flag sets; `Configuration.ofArgv_insert_direct` and `Configuration.ofArgv_insert_verbose`
  for `-d` and `-v`.
-/

namespace TestRig

/-! ## Results and errors -/

section Except

variable {ε ε' α β : Type}

theorem bind_eq_ok {x : Except ε α} {f : α → Except ε β} {b : β} :
    (x >>= f) = .ok b ↔ ∃ a, x = .ok a ∧ f a = .ok b := by
  cases x <;> simp [bind, Except.bind]

theorem bind_eq_error {x : Except ε α} {f : α → Except ε β} {e : ε} :
    (x >>= f) = .error e ↔ x = .error e ∨ ∃ a, x = .ok a ∧ f a = .error e := by
  cases x <;> simp [bind, Except.bind]

theorem mapError_eq_ok {x : Except ε α} {f : ε → ε'} {a : α} :
    x.mapError f = .ok a ↔ x = .ok a := by
  cases x with
  | error e => exact ⟨fun h => (nomatch h), fun h => (nomatch h)⟩
  | ok b => exact ⟨fun h => congrArg _ (Except.ok.inj h), fun h => congrArg _ (Except.ok.inj h)⟩

theorem mapError_eq_error {x : Except ε α} {f : ε → ε'} {e' : ε'} :
    x.mapError f = .error e' ↔ ∃ e, x = .error e ∧ f e = e' := by
  cases x with
  | error e =>
    refine ⟨fun h => ⟨e, rfl, Except.error.inj h⟩, ?_⟩
    rintro ⟨x, hx, rfl⟩
    cases hx
    rfl
  | ok a => exact ⟨fun h => (nomatch h), fun ⟨_, h, _⟩ => (nomatch h)⟩

/-- Something that is seen to succeed, with some property. -/
theorem exists_eq_ok {x : Except ε α} {p : α → Prop} [DecidablePred p]
    (h : x.toOption.any (fun a => decide (p a)) = true) : ∃ a, x = .ok a ∧ p a := by
  cases x with
  | error e => simp [Except.toOption] at h
  | ok a => exact ⟨a, rfl, by simpa [Except.toOption] using h⟩

/-- Something that is seen to fail with an error. -/
theorem eq_error_of_decide [DecidableEq ε] {x : Except ε α} {e : ε}
    (h : (match x with
      | .error e' => decide (e' = e)
      | .ok _ => false) = true) : x = .error e := by
  cases x with
  | error e' => rw [of_decide_eq_true h]
  | ok a => cases h

theorem map_bind (φ : α → β) (x : Except ε α) (f : β → Except ε β) (g : α → Except ε α)
    (h : ∀ a, f (φ a) = (g a).map φ) : (x.map φ >>= f) = (x >>= g).map φ := by
  cases x with
  | error e => rfl
  | ok a => exact h a

/-- What a step does to an image of a state is the image of what it does, and so it is with steps. -/
theorem foldlM_map (φ : α → α) (f : α → β → Except ε α)
    (h : ∀ a b, f (φ a) b = (f a b).map φ) : ∀ (bs : List β) (a : α),
    bs.foldlM f (φ a) = (bs.foldlM f a).map φ
  | [], _ => rfl
  | b :: bs, a => by
    rw [List.foldlM_cons, List.foldlM_cons, h]
    exact map_bind φ _ _ _ (foldlM_map φ f h bs)

/-- What every step keeps is kept by steps that all succeed. -/
theorem foldlM_keeps {P : α → Prop} {f : α → β → Except ε α}
    (h : ∀ {a b a'}, P a → f a b = .ok a' → P a') : ∀ {bs : List β} {a a' : α},
    P a → bs.foldlM f a = .ok a' → P a'
  | [], _, _, ha, hbs => by
    cases hbs
    exact ha
  | b :: bs, a, a', ha, hbs => by
    rw [List.foldlM_cons] at hbs
    obtain ⟨a₁, hb, hbs⟩ := bind_eq_ok.mp hbs
    exact foldlM_keeps h (h ha hb) hbs

end Except

namespace Options

variable {α : Type} {g : Grammar α} {w : Word} {e : Entry α} {n : List Char}

/-! ## Marking -/

/-- Marking goes word by word, up to a separator. -/
theorem markAll_cons_eq_ok {v : Word} {r : List Word} {M : List (Marked α)} :
    markAll g (v :: r) = .ok M ↔ ∃ m, mark g v = .ok m ∧
      ((m = .separator ∧ M = (v, .separator) :: r.map fun u => (u, .value)) ∨
        (m ≠ .separator ∧ ∃ M', markAll g r = .ok M' ∧ M = (v, m) :: M')) := by
  rw [markAll, bind_eq_ok]
  refine exists_congr fun m => and_congr_right fun _ => ?_
  cases m with
  | separator => simp [pure, Except.pure, eq_comm]
  | _ =>
    refine bind_eq_ok.trans ?_
    simp [pure, Except.pure, eq_comm]

/-- A word that marks an option is marked by itself, unless a separator stands somewhere. -/
theorem markAll_insert (hw : mark g w = .ok (.option e n none)) {Q : List Word} :
    ∀ {P : List Word} {M : List (Marked α)}, markAll g (P ++ w :: Q) = .ok M →
      (∃ p ∈ M, p.2 = .separator) ∨
      ∃ A B, M = A ++ (w, .option e n none) :: B ∧ markAll g (P ++ Q) = .ok (A ++ B)
  | [], M, h => by
    obtain ⟨m, hm, hM⟩ := markAll_cons_eq_ok.mp h
    rw [hw] at hm
    cases hm
    rcases hM with ⟨hm, -⟩ | ⟨-, B, hB, rfl⟩
    · cases hm
    · exact Or.inr ⟨[], B, rfl, hB⟩
  | v :: P, M, h => by
    obtain ⟨m, hm, hM⟩ := markAll_cons_eq_ok.mp h
    rcases hM with ⟨-, rfl⟩ | ⟨hsep, M', hM', rfl⟩
    · exact Or.inl ⟨_, List.mem_cons_self, rfl⟩
    · rcases markAll_insert hw hM' with ⟨p, hp, hs⟩ | ⟨A, B, rfl, hAB⟩
      · exact Or.inl ⟨p, List.mem_cons_of_mem _ hp, hs⟩
      · refine Or.inr ⟨(v, m) :: A, B, rfl, ?_⟩
        exact markAll_cons_eq_ok.mpr ⟨m, hm, Or.inr ⟨hsep, A ++ B, hAB, rfl⟩⟩

/-! ## Reading -/

/-- A reading without a fault that leaves no word over. -/
def Reading.IsWhole (r : Reading α) : Prop := r.fault = none ∧ r.extras = []

@[simp] theorem isWhole_withExtra (v : Word) (r : Reading α) : ¬ (r.withExtra v).IsWhole := by
  simp [Reading.IsWhole, Reading.withExtra]

@[simp] theorem isWhole_withUses (us : List (Use α)) (r : Reading α) :
    (r.withUses us).IsWhole ↔ r.IsWhole := Iff.rfl

/-- How the word of an option is read: by itself, or with the value behind it.  Neither depends on
what follows. -/
theorem readMarked_option {v : Word} {j : Option (List Char)} {r : List (Marked α)}
    (h : (readMarked g false ((v, .option e n j) :: r)).IsWhole) :
    (∃ us, ∀ r', readMarked g false ((v, .option e n j) :: r') =
      (readMarked g false r').withUses us) ∨
    ∃ v' r' us, r = (v', .value) :: r' ∧ ∀ r'',
      readMarked g false ((v, .option e n j) :: (v', .value) :: r'') =
        (readMarked g false r'').withUses us := by
  cases hu : unmergeMark g e n j with
  | error m => simp [readMarked, hu, Reading.IsWhole] at h
  | ok u =>
    by_cases hv : u.last.isValued
    · cases hj : u.joined with
      | some cs => exact Or.inl ⟨_, fun r' => by simp only [readMarked, hu, hv, hj]; rfl⟩
      | none =>
        match r, h with
        | [], h => simp [readMarked, hu, hv, hj, Reading.IsWhole] at h
        | (v', .value) :: r', _ =>
          exact Or.inr ⟨v', r', _, rfl, fun r'' => by simp only [readMarked, hu, hv, hj]; rfl⟩
        | (v', .separator) :: r', h => simp [readMarked, hu, hv, hj, Reading.IsWhole] at h
        | (v', .unknown) :: r', h => simp [readMarked, hu, hv, hj, Reading.IsWhole] at h
        | (v', .option _ _ _) :: r', h => simp [readMarked, hu, hv, hj, Reading.IsWhole] at h
    · exact Or.inl ⟨_, fun r' => by simp only [readMarked, hu, hv]; rfl⟩

/-- A separator is left over, or a fault comes before it. -/
theorem no_separator_of_isWhole {M : List (Marked α)} (h : (readMarked g false M).IsWhole) :
    ∀ p ∈ M, p.2 ≠ .separator := by
  match M with
  | [] => simp
  | (v, .separator) :: r | (v, .value) :: r | (v, .unknown) :: r =>
    exact absurd h (by simp [readMarked])
  | (v, .option e n j) :: r =>
    rcases readMarked_option h with ⟨us, hus⟩ | ⟨v', r', us, rfl, hus⟩
    · rw [hus, isWhole_withUses] at h
      simpa using fun a b hab => no_separator_of_isWhole h (a, b) hab
    · rw [hus, isWhole_withUses] at h
      simpa using fun a b hab => no_separator_of_isWhole h (a, b) hab
termination_by M.length

/-- A flag that is put in adds one use to a reading. -/
theorem readMarked_insert (hn : unmergeMark g e n none = .ok { last := e }) (he : e.isValued = false)
    {Q : List (Marked α)} : ∀ {P : List (Marked α)},
    (readMarked g false (P ++ (w, .option e n none) :: Q)).IsWhole →
      (readMarked g false (P ++ Q)).IsWhole ∧ ∃ us vs,
        (readMarked g false (P ++ (w, .option e n none) :: Q)).uses = us ++ ⟨e, none⟩ :: vs ∧
        (readMarked g false (P ++ Q)).uses = us ++ vs
  | [], h => by
    have hd : readMarked g false ((w, .option e n none) :: Q) =
        (readMarked g false Q).withUses [⟨e, none⟩] := by
      simp [readMarked, hn, he, Unmerged.flagUses]
    simp only [List.nil_append, hd, isWhole_withUses] at h ⊢
    exact ⟨h, [], _, rfl, rfl⟩
  | (v, .separator) :: P, h | (v, .value) :: P, h | (v, .unknown) :: P, h =>
    absurd h (by simp [readMarked])
  | (v, .option e' n' j) :: P, h => by
    rcases readMarked_option h with ⟨us, hus⟩ | ⟨v', r', us, hr, hus⟩
    · rw [List.cons_append, hus] at h ⊢
      obtain ⟨hw, us', vs, h1, h2⟩ := readMarked_insert hn he h
      rw [List.cons_append, hus]
      exact ⟨hw, us ++ us', vs, by simp [Reading.withUses, h1], by simp [Reading.withUses, h2]⟩
    · match P, hr with
      | [], hr => cases hr
      | q :: P, hr =>
        obtain ⟨rfl, rfl⟩ := List.cons.inj (show q :: (P ++ _) = _ from hr)
        rw [List.cons_append, List.cons_append, hus] at h
        obtain ⟨hw, us', vs, h1, h2⟩ := readMarked_insert hn he h
        rw [List.cons_append, List.cons_append, List.cons_append, List.cons_append, hus, hus]
        exact ⟨hw, us ++ us', vs, by simp [Reading.withUses, h1], by simp [Reading.withUses, h2]⟩
termination_by P => P.length

/-- **A flag that is put in**: if the words with it are read as a whole, so are the words without
it, and the flag adds one use. -/
theorem read_insert (hw : mark g w = .ok (.option e n none))
    (hn : unmergeMark g e n none = .ok { last := e }) (he : e.isValued = false) {P Q : List Word}
    (h : (read g false (P ++ w :: Q)).IsWhole) :
    (read g false (P ++ Q)).IsWhole ∧ ∃ us vs,
      (read g false (P ++ w :: Q)).uses = us ++ ⟨e, none⟩ :: vs ∧
      (read g false (P ++ Q)).uses = us ++ vs := by
  unfold read at h ⊢
  cases hM : markAll g (P ++ w :: Q) with
  | error m => simp [hM, Reading.IsWhole] at h
  | ok M =>
    simp only [hM] at h ⊢
    rcases markAll_insert hw hM with ⟨p, hp, hs⟩ | ⟨A, B, rfl, hAB⟩
    · exact absurd hs (no_separator_of_isWhole h p hp)
    · simp only [hAB]
      exact readMarked_insert hn he h

end Options

/-! ## Acting on what was read -/

namespace Configuration

/-- The configuration with the tests in this process. -/
def inProcess (c : Configuration) : Configuration := { c with direct := true }

/-- The configuration with notes. -/
def withNotes (c : Configuration) : Configuration := { c with verbose := true }

theorem apply_withNotes (c : Configuration) (u : Options.Use Setting) :
    apply c.withNotes u = (apply c u).map withNotes := by
  unfold apply
  cases u.entry.meaning with
  | logFile => dsimp only; cases readValue u readNonBlank <;> rfl
  | select => dsimp only; cases readValue u readNonBlank <;> rfl
  | timeout => dsimp only; cases readValue u readTimeout <;> rfl
  | _ => rfl

/-- A use of a flag makes the same of a configuration wherever it stands, if no other option depends
on that. -/
theorem foldlM_insert {φ : Configuration → Configuration} {u : Options.Use Setting}
    (hφ : ∀ c u, apply (φ c) u = (apply c u).map φ) (hu : ∀ c, apply c u = .ok (φ c))
    (us vs : List (Options.Use Setting)) (c : Configuration) :
    (us ++ u :: vs).foldlM apply c = ((us ++ vs).foldlM apply c).map φ := by
  rw [List.foldlM_append, List.foldlM_append]
  cases us.foldlM apply c with
  | error s => rfl
  | ok c' =>
    show (u :: vs).foldlM apply c' = (vs.foldlM apply c').map φ
    rw [List.foldlM_cons, hu]
    exact foldlM_map φ apply hφ vs c'

/-- Options give a configuration when they are read as a whole and all of them are acted on. -/
theorem ofWords_eq_ok {program : Path} {words : List Options.Word} {c : Configuration} :
    ofWords program words = .ok c ↔ (Options.read grammar false words).IsWhole ∧
      (Options.read grammar false words).uses.foldlM apply { program } = .ok c := by
  unfold ofWords Options.Reading.IsWhole Options.Reading.act
  generalize Options.read grammar false words = reading
  obtain ⟨uses, extras, fault, rest⟩ := reading
  cases h : uses.foldlM apply { program } with
  | error s => simp [h, bind, Except.bind]
  | ok c' => cases fault <;> cases extras <;>
      simp [h, bind, Except.bind, pure, Except.pure, refuseExtras, throw, throwThe, MonadExceptOf.throw]

/-- **A flag on a command line**, put in anywhere, makes the same of the configuration. -/
theorem ofArgv_insert {φ : Configuration → Configuration} {flag : String} {e : Options.Entry Setting}
    {n : List Char} (hmark : Options.mark grammar (some flag) = .ok (.option e n none))
    (hflag : Options.unmergeMark grammar e n none = .ok { last := e }) (he : e.isValued = false)
    (hφ : ∀ c u, apply (φ c) u = (apply c u).map φ) (hu : ∀ c, apply c ⟨e, none⟩ = .ok (φ c))
    {program : String} {P Q : List String} {c' : Configuration}
    (h : ofArgv (program :: (P ++ flag :: Q)) = .ok c') :
    ∃ c, ofArgv (program :: (P ++ Q)) = .ok c ∧ c' = φ c := by
  simp only [ofArgv, List.map_append, List.map_cons] at h ⊢
  obtain ⟨hwhole, hact⟩ := ofWords_eq_ok.mp h
  obtain ⟨hwhole', us, vs, hus, hvs⟩ := Options.read_insert hmark hflag he hwhole
  rw [hus, foldlM_insert hφ hu, ← hvs] at hact
  cases hc : (Options.read grammar false (P.map some ++ Q.map some)).uses.foldlM apply
      { program := Path.ofString program } with
  | error s => rw [hc] at hact; cases hact
  | ok c =>
    rw [hc] at hact
    cases hact
    exact ⟨c, ofWords_eq_ok.mpr ⟨hwhole', hc⟩, rfl⟩

/-- **The flag `-v` on a command line**: put in anywhere, it asks for notes and changes nothing
else. -/
theorem ofArgv_insert_verbose {program : String} {P Q : List String} {c' : Configuration}
    (h : ofArgv (program :: (P ++ "-v" :: Q)) = .ok c') :
    ∃ c, ofArgv (program :: (P ++ Q)) = .ok c ∧ c' = c.withNotes :=
  ofArgv_insert rfl rfl rfl apply_withNotes (fun _ => rfl) h

end Configuration

end TestRig
