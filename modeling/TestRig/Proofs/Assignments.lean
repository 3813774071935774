import TestRig.Proofs.Conversion
import TestRig.Proofs.Specifications

/-!
# TestRig.Proofs.Assignments — named values are what has been assigned

Named values are given by assignments, one after the other; some of them are refused.  What a name
stands for, and in which order the names come, is known from the assignments.

* `Text.Strips`: a text without the blanks at its ends; `Text.strips_iff` ties it to `Text.trimChars`.
* `Arguments.Accepted`, `Arguments.Names`: the assignments that are not refused, and their names.
* `Arguments.store`: an assignment as an action; `store_cases` says what it does.
* `Arguments.get?_stored`: a value after any assignments; `mem_names_stored` and `ordered_stored`: the
  names.
* `Arguments.assignments_decide`: what any assignments leave, and what the next one does.
-/

namespace TestRig

/-! ## Texts without the blanks at their ends -/

namespace Text

variable {cs m : List Char}

/-- The one text is the other between blanks, and has no blank at its own ends. -/
def Strips (cs m : List Char) : Prop :=
  ∃ a b, cs = a ++ m ++ b ∧ (∀ c ∈ a ++ b, isBlank c = true) ∧
    (∀ c ∈ m.head?, isBlank c = false) ∧ ∀ c ∈ m.getLast?, isBlank c = false

/-- What is cut off at the end. -/
theorem exists_append_dropWhileEnd (p : Char → Bool) (cs : List Char) :
    ∃ t, cs = dropWhileEnd p cs ++ t ∧ ∀ c ∈ t, p c = true := by
  refine ⟨cs.rtakeWhile p, ?_, fun c hc => List.mem_rtakeWhile_imp hc⟩
  rw [dropWhileEnd_eq_rdropWhile, List.rdropWhile_append_rtakeWhile]

theorem head_trimChars (cs : List Char) : ∀ c ∈ (trimChars cs).head?, isBlank c = false := by
  intro c hc
  obtain ⟨t, ht, -⟩ := exists_append_dropWhileEnd isBlank (cs.dropWhile isBlank)
  have hfirst := List.head?_dropWhile_not isBlank cs
  rw [ht, List.head?_append, ← trimChars, Option.mem_def.mp hc] at hfirst
  exact hfirst

theorem strips_iff : Strips cs m ↔ trimChars cs = m := by
  constructor
  · rintro ⟨a, b, rfl, hblank, hfirst, hlast⟩
    rw [trimChars_padded (fun c hc => hblank c (List.mem_append_left _ hc))
      fun c hc => hblank c (List.mem_append_right _ hc)]
    exact trimChars_of_ends hfirst hlast
  · rintro rfl
    obtain ⟨t, ht, hblank⟩ := exists_append_dropWhileEnd isBlank (cs.dropWhile isBlank)
    refine ⟨cs.takeWhile isBlank, t, ?_, fun c hc => ?_, head_trimChars cs, getLast_dropWhileEnd _ _⟩
    · rw [List.append_assoc, trimChars, ← ht, List.takeWhile_append_dropWhile]
    · exact (List.mem_append.mp hc).elim (List.all_eq_true.mp List.all_takeWhile c) (hblank c)

end Text

namespace Arguments

variable {a : Arguments} {s m n : String} {xs : List String}

/-! ## Assignments -/

/-- The text in front of the first equals sign, or the whole text. -/
def front (s : String) : List Char := s.toList.takeWhile (· != '=')

/-- The text behind the first equals sign, and nothing if there is none. -/
def back (s : String) : String := String.ofList ((s.toList.dropWhile (· != '=')).drop 1)

/-- There is more than blanks in front of the equals sign. -/
def Accepted (s : String) : Prop := ∃ c ∈ front s, Text.isBlank c = false

/-- An assignment that is accepted, and its name. -/
structure Names (s m : String) : Prop where
  accepted : Accepted s
  strips : Text.Strips (front s) m.toList

theorem not_accepted : ¬ Accepted s ↔ ∀ c ∈ front s, Text.isBlank c = true := by
  simp [Accepted]

theorem readAssignment_eq (s : String) :
    readAssignment s = (String.ofList (Text.trimChars (front s)), back s) := by
  have hvalue : ∀ cs : List Char, ((Text.cutFirst '=' cs).getD (cs, [])).2 =
      (cs.dropWhile (· != '=')).drop 1 := by
    intro cs
    induction cs with
    | nil => rfl
    | cons c r ih =>
      by_cases h : c = '='
      · simp [Text.cutFirst, h]
      · rw [List.dropWhile_cons, if_pos (by simpa using h), ← ih, Text.cutFirst, if_neg h]
        cases Text.cutFirst '=' r <;> rfl
  rw [front, back, ← Text.cutFirst_getD, ← hvalue]
  rfl

/-- The name of an assignment. -/
theorem names_iff : Names s m ↔ Accepted s ∧ m = (readAssignment s).1 := by
  rw [readAssignment_eq, eq_comm, ← String.toList_inj, String.toList_ofList, ← Text.strips_iff]
  exact ⟨fun h => ⟨h.accepted, h.strips⟩, fun h => ⟨h.1, h.2⟩⟩

theorem Names.unique (h : Names s m) (h' : Names s n) : m = n :=
  (names_iff.mp h).2.trans (names_iff.mp h').2.symm

/-! ## Storing one assignment -/

/-- Storing an assignment as an action on the named values: what it has changed when it raises
something stays changed. -/
def store (assignment : String) : ExceptT Fault (StateM Arguments) Unit := do
  let (name, value) := readAssignment assignment
  if name.isEmpty then
    throw ⟨assignment⟩
  modify fun a => a.put name value

/-- The action does what `add` tells. -/
theorem run_store (a : Arguments) (s : String) : (store s).run.run a = match a.add s with
    | .ok b => (.ok (), b)
    | .error f => (.error f, a) := by
  unfold store add
  dsimp only
  cases (readAssignment s).1.isEmpty <;> rfl

/-- **One assignment** is refused and changes nothing, or its value is put in. -/
theorem store_cases (a : Arguments) (s : String) :
    (¬ Accepted s ∧ (store s).run.run a = (.error ⟨s⟩, a)) ∨
    ∃ m, Names s m ∧ (store s).run.run a = (.ok (), a.put m (back s)) := by
  rw [run_store]
  cases h : a.add s with
  | error f =>
    obtain ⟨hblank, rfl⟩ := add_eq_error.mp h
    exact Or.inl ⟨not_accepted.mpr hblank, rfl⟩
  | ok b =>
    have haccepted : Accepted s := by
      by_contra hno
      rw [add_eq_error.mpr ⟨not_accepted.mp hno, rfl⟩] at h
      cases h
    refine Or.inr ⟨(readAssignment s).1, names_iff.mpr ⟨haccepted, rfl⟩, ?_⟩
    unfold add at h
    dsimp only at h
    split at h
    · cases h
    · cases h
      rw [readAssignment_eq]

/-! ## Values -/

theorem lookup_assign (name value m : String) : ∀ items : List (String × String),
    (assign name value items).lookup m = if m = name then some value else items.lookup m
  | [] => by
    by_cases h : m = name <;> simp [assign, h]
  | (n, v) :: r => by
    by_cases hm : m = n
    · subst hm
      by_cases h : m = name <;> simp [assign, h]
    · have hbeq : (m == n) = false := beq_eq_false_iff_ne.mpr hm
      by_cases h : n = name
      · subst h
        simp [assign, List.lookup_cons, hbeq, hm]
      · rw [assign, if_neg h, List.lookup_cons, List.lookup_cons, hbeq]
        exact lookup_assign name value m r

theorem get?_put (a : Arguments) (name value m : String) :
    (a.put name value).get? m = if m = name then some value else a.get? m :=
  lookup_assign name value m a.items

/-- The named values behind a list of assignments, some of which may have been refused. -/
def stored (a : Arguments) (xs : List String) : Arguments :=
  xs.foldl (fun a s => ((store s).run.run a).2) a

theorem stored_append (a : Arguments) (xs ys : List String) :
    a.stored (xs ++ ys) = (a.stored xs).stored ys := List.foldl_append

theorem stored_cons (a : Arguments) (s : String) (xs : List String) :
    a.stored (s :: xs) = ((store s).run.run a).2.stored xs := by
  rw [stored, List.foldl_cons, stored]

/-- The assignment of one name leaves the others alone. -/
theorem get?_store_of_not_names (h : ¬ Names s m) : ((store s).run.run a).2.get? m = a.get? m := by
  rcases a.store_cases s with ⟨-, hrun⟩ | ⟨n, hn, hrun⟩
  · rw [hrun]
  · have hne : m ≠ n := fun e => h (e ▸ hn)
    rw [hrun, get?_put, if_neg hne]

theorem get?_store_of_names (h : Names s m) : ((store s).run.run a).2.get? m = some (back s) := by
  rcases a.store_cases s with ⟨hno, -⟩ | ⟨n, hn, hrun⟩
  · exact absurd h.accepted hno
  · rw [hrun, get?_put, if_pos (h.unique hn)]

theorem get?_stored_of_not_names : ∀ {xs : List String} {a : Arguments}, (∀ s ∈ xs, ¬ Names s m) →
    (a.stored xs).get? m = a.get? m
  | [], _, _ => rfl
  | s :: xs, a, h => by
    rw [stored_cons, get?_stored_of_not_names fun s' hs' => h s' (List.mem_cons_of_mem _ hs'),
      get?_store_of_not_names (h s List.mem_cons_self)]

/-- **The last assignment of a name decides on its value.** -/
theorem get?_stored {pre post : List String} (h : Names s m) (hpost : ∀ s' ∈ post, ¬ Names s' m) :
    (a.stored (pre ++ s :: post)).get? m = some (back s) := by
  rw [stored_append, stored_cons, get?_stored_of_not_names hpost, get?_store_of_names h]

theorem item_of_get? {v : String} (h : a.get? m = some v) : a.item m = .ok v := by
  rw [item, h]

theorem item_of_get?_none (h : a.get? m = none) : a.item m = .error (.of .keyError m) := by
  rw [item, h]

theorem getValue_of_get? {v : String} (h : a.get? m = some v) (d : Value) :
    a.getValue m d = .text v := by
  rw [getValue, h]

theorem getValue_of_get?_none (h : a.get? m = none) (d : Value) : a.getValue m d = d := by
  rw [getValue, h]

/-! ## Names -/

theorem mem_names : m ∈ a.names ↔ a.contains m = true := by
  rw [contains, get?, List.lookup_isSome_iff, names, List.mem_map]
  simp only [beq_iff_eq, eq_comm (a := m)]

theorem size_eq (a : Arguments) : a.size = a.names.length := by
  rw [size, names, List.length_map]

theorem names_put (a : Arguments) (name value : String) : (a.put name value).names =
    if name ∈ a.names then a.names else a.names ++ [name] := map_fst_assign name value a.items

theorem mem_names_store : m ∈ ((store s).run.run a).2.names ↔ m ∈ a.names ∨ Names s m := by
  rcases a.store_cases s with ⟨hno, hrun⟩ | ⟨n, hn, hrun⟩
  · have hnot : ¬ Names s m := fun h => hno h.accepted
    simp [hrun, hnot]
  · have hiff : Names s m ↔ m = n := ⟨fun h => h.unique hn, fun e => e ▸ hn⟩
    rw [hrun, names_put, hiff]
    split
    · rename_i hold
      exact ⟨Or.inl, fun h => h.elim id fun e => e ▸ hold⟩
    · simp

theorem mem_names_stored : ∀ {xs : List String} {a : Arguments},
    m ∈ (a.stored xs).names ↔ m ∈ a.names ∨ ∃ s ∈ xs, Names s m
  | [], a => by simp [stored]
  | s :: xs, a => by
    rw [stored_cons, mem_names_stored, mem_names_store, or_assoc, List.exists_mem_cons_iff]

theorem mem_names_stored_empty : m ∈ (empty.stored xs).names ↔ ∃ s ∈ xs, Names s m := by
  rw [mem_names_stored]
  exact or_iff_right List.not_mem_nil

/-- One name has been given a value before the other one was for the first time. -/
def Earlier (xs : List String) (m n : String) : Prop :=
  ∃ pre s post, xs = pre ++ s :: post ∧ Names s m ∧ ∀ s' ∈ pre ++ [s], ¬ Names s' n

theorem Earlier.append (h : Earlier xs m n) (ys : List String) : Earlier (xs ++ ys) m n := by
  obtain ⟨pre, s, post, rfl, hm, hn⟩ := h
  exact ⟨pre, s, post ++ ys, by simp, hm, hn⟩

/-- A name that nobody has given a value yet comes behind all that have one. -/
theorem Earlier.of_fresh (hm : ∃ s ∈ xs, Names s m) (hn : ¬ ∃ s ∈ xs, Names s n) :
    Earlier xs m n := by
  obtain ⟨s, hs, hm⟩ := hm
  obtain ⟨pre, post, rfl⟩ := List.append_of_mem hs
  refine ⟨pre, s, post, rfl, hm, fun s' hs' h => hn ⟨s', ?_, h⟩⟩
  rw [List.append_cons]
  exact List.mem_append_left _ hs'

/-- **The names come in the order of their first assignments.** -/
theorem ordered_stored (xs : List String) : (empty.stored xs).names.Pairwise (Earlier xs) := by
  -- from the end: a new name is put behind those that the assignments before it have named
  induction xs using List.reverseRecOn with
  | nil => exact List.Pairwise.nil
  | append_singleton xs s ih =>
    have hold : (empty.stored xs).names.Pairwise (Earlier (xs ++ [s])) := ih.imp fun h => h.append [s]
    rw [stored_append, stored_cons]
    rcases (empty.stored xs).store_cases s with ⟨-, hrun⟩ | ⟨n, -, hrun⟩
    · rw [hrun]
      exact hold
    · rw [hrun]
      show ((empty.stored xs).put n (back s)).names.Pairwise _
      rw [names_put]
      split
      · exact hold
      · rename_i hfresh
        refine List.pairwise_append.mpr ⟨hold, List.pairwise_singleton _ _, fun m hm k hk => ?_⟩
        obtain rfl := List.mem_singleton.mp hk
        have hnamed := mem_names_stored_empty.mp hm
        exact (Earlier.of_fresh hnamed (mt mem_names_stored_empty.mpr hfresh)).append [s]

/-- **Named values are what has been assigned.**  Behind any assignments, some of which may have been
refused: another one is refused exactly if there is nothing but blanks in front of its first equals
sign, as an invalid argument, and then it changes nothing.  A name is found exactly if it is the name of
an accepted assignment, and its value is what stands behind the first equals sign of the last of these;
a name that is not found gives the default, or a key error.  The names are listed once each, in the
order of their first assignments, and counted. -/
theorem assignments_decide {xs : List String} {a : Arguments} (h : empty.stored xs = a) :
    (∀ s f, a.add s = .error f ↔ (∀ c ∈ front s, Text.isBlank c = true) ∧ f = ⟨s⟩) ∧
    (∀ s f, a.add s = .error f →
      f.exception.kind = .invalidArgument ∧ (store s).run.run a = (.error f, a)) ∧
    (∀ s b, a.add s = .ok b → (store s).run.run a = (.ok (), b)) ∧
    (∀ m, a.contains m = true ↔ ∃ s ∈ xs, Names s m) ∧
    (∀ m pre s post, xs = pre ++ s :: post → Names s m → (∀ s' ∈ post, ¬ Names s' m) →
      a.item m = .ok (back s) ∧ ∀ d, a.getValue m d = .text (back s)) ∧
    (∀ m, (∀ s ∈ xs, ¬ Names s m) →
      a.item m = .error (.of .keyError m) ∧ ∀ d, a.getValue m d = d) ∧
    a.names.Nodup ∧ (∀ m, m ∈ a.names ↔ ∃ s ∈ xs, Names s m) ∧ a.names.Pairwise (Earlier xs) ∧
    a.size = a.names.length := by
  have hnames : ∀ m, m ∈ a.names ↔ ∃ s ∈ xs, Names s m := fun m => h ▸ mem_names_stored_empty
  have hordered : a.names.Pairwise (Earlier xs) := h ▸ ordered_stored xs
  refine ⟨fun s f => add_eq_error, fun s f hs => ⟨rfl, ?_⟩, fun s b hs => ?_, fun m => ?_,
    fun m pre s post hxs hm hpost => ?_, fun m hno => ?_, a.nodup, hnames, hordered, size_eq a⟩
  · rw [run_store, hs]
  · rw [run_store, hs]
  · rw [← mem_names, hnames]
  · have hget : a.get? m = some (back s) := by
      rw [← h, hxs]
      exact get?_stored hm hpost
    exact ⟨item_of_get? hget, getValue_of_get? hget⟩
  · have hget : a.get? m = none := by
      rw [← h]
      exact get?_stored_of_not_names hno
    exact ⟨item_of_get?_none hget, getValue_of_get?_none hget⟩

/-- A name that is given a value twice, with blanks around it and another equals sign behind the first
one, and an assignment that is refused in between. -/
theorem assignments_decide_twice :
    let xs := ["a=1", " =x", "b", " a =2=3"]
    let a := empty.stored xs
    a.add " =x" = .error ⟨" =x"⟩ ∧ (store " =x").run.run a = (.error ⟨" =x"⟩, a) ∧
    a.item "a" = .ok "2=3" ∧ a.item "c" = .error (.of .keyError "c") ∧ a.names = ["a", "b"] := by
  intro xs a
  obtain ⟨hadd, hstore, -, -, hlast, hnone, -⟩ := assignments_decide (rfl : empty.stored xs = a)
  have hblank : (front " =x").all Text.isBlank = true := by decide +kernel
  have hrefused := (hadd " =x" ⟨" =x"⟩).mpr ⟨List.all_eq_true.mp hblank, rfl⟩
  have hnamed : Names " a =2=3" "a" :=
    names_iff.mpr ⟨⟨'a', by decide +kernel, by decide +kernel⟩, by decide +kernel⟩
  have hback : back " a =2=3" = "2=3" := by decide +kernel
  have hc : ∀ s ∈ xs, ¬ Names s "c" := by
    have hnames : ∀ s ∈ xs, "c" ≠ (readAssignment s).1 := by decide +kernel
    exact fun s hs h => hnames s hs (names_iff.mp h).2
  have ha := (hlast "a" ["a=1", " =x", "b"] " a =2=3" [] rfl hnamed (by simp)).1
  rw [hback] at ha
  exact ⟨hrefused, (hstore " =x" _ hrefused).2, ha, (hnone "c" hc).1, by decide +kernel⟩

end Arguments

end TestRig
