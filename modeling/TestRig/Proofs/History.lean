import TestRig.Proofs.Admission
import TestRig.Proofs.Numerals

/-!
# TestRig.Proofs.History — a registry is what it has been asked

A registry is asked to select tests and to admit them, in any order; some of the calls raise
something.  Its state is known from what was asked and answered, and the state decides the next
answer.

* `Registry.history` is what was asked and answered so far, `Registry.served` the registry then.
* `Registry.Effect`: what one call does, whatever it returns.
* `Registry.Records`: the state as a function of the history.  One call keeps it
  (`Records.asked`), so it holds of every registry (`records_served`).
* `Registry.history_decides`: the state after any calls, and what the next call does in it.
-/

namespace TestRig

namespace Registry

/-! ## Calls and their answers -/

/-- What a registry is asked. -/
inductive Query
  | select (spec : String)
  | enroll (k : Key)

inductive Reply
  | selected (test : Except Fault Identity)
  | enrolled (admitted : Except Fault Bool)

def Query.serve (q : Query) (r : Registry) : Reply × Registry :=
  match q with
  | .select spec => (.selected (r.select spec).1, (r.select spec).2)
  | .enroll k => (.enrolled (r.enroll k).1, (r.enroll k).2)

/-- A call with its answer. -/
structure Event where
  query : Query
  reply : Reply

namespace Event

/-- The test of a key was admitted. -/
def admits (k : Key) (e : Event) : Bool :=
  match e.query, e.reply with
  | .enroll j, .enrolled (.ok true) => j == k
  | _, _ => false

/-- A specification of the key was read and selected. -/
def selects (k : Key) (e : Event) : Bool :=
  match e.reply with
  | .selected (.ok test) => test.key == k
  | _ => false

/-- The admission of a key was asked for, with whatever answer. -/
def asks (k : Key) (e : Event) : Bool :=
  match e.query with
  | .enroll j => j == k
  | _ => false

end Event

variable {r r' : Registry} {k : Key} {h : List Event} {e : Event}

def ask (r : Registry) (q : Query) : Event := ⟨q, (q.serve r).1⟩

/-- The calls with their answers, in order. -/
def history (r : Registry) : List Query → List Event
  | [] => []
  | q :: qs => r.ask q :: history (q.serve r).2 qs

/-- The registry behind a list of calls. -/
def served (r : Registry) (qs : List Query) : Registry := qs.foldl (fun r q => (q.serve r).2) r

/-! ## What a state decides -/

theorem enroll_eq_false : (r.enroll k).1 = .ok false ↔ r.isSelected k = false := by
  rcases r.enroll_cases k with ⟨hs, he⟩ | ⟨hs, -, he⟩ | ⟨hs, -, he⟩ <;> simp [hs, he]

theorem enroll_of_false (hf : (r.enroll k).1 = .ok false) : (r.enroll k).2 = r := by
  rcases r.enroll_cases k with ⟨-, he⟩ | ⟨-, -, he⟩ | ⟨-, -, he⟩
  · rw [he]
  · rw [he] at hf; cases hf
  · rw [he] at hf; cases hf

theorem enroll_eq_error {f : Fault} : (r.enroll k).1 = .error f ↔
    r.isSelected k = true ∧ k ∈ r.haveRun ∧ f = .duplicate (r.identity k) := by
  rcases r.enroll_cases k with ⟨hs, he⟩ | ⟨hs, hk, he⟩ | ⟨hs, hk, he⟩
  · simp [hs, he]
  · simp [hs, hk, he, eq_comm]
  · simp [hk, he]

theorem enroll_of_error {f : Fault} (hf : (r.enroll k).1 = .error f) :
    ∃ selection, (r.enroll k).2 = { r with selection } ∧
      (∀ j ∈ selection, j ∈ r.selection) ∧ ∀ j ≠ k, j ∈ r.selection → j ∈ selection := by
  rcases r.enroll_cases k with ⟨-, he⟩ | ⟨-, -, he⟩ | ⟨-, -, he⟩
  · rw [he] at hf; cases hf
  · rw [he]
    unfold spend
    split
    · exact ⟨_, rfl, fun j hj => (KeySet.mem_erase.mp hj).2,
        fun j hjk hj => KeySet.mem_erase.mpr ⟨hjk, hj⟩⟩
    · exact ⟨_, rfl, fun _ hj => hj, fun _ _ hj => hj⟩
  · rw [he] at hf; cases hf

/-! ## What a call does -/

/-- What one call does to the state, told from the call and its answer. -/
structure Effect (r : Registry) (e : Event) (r' : Registry) : Prop where
  group : r'.group = r.group
  haveRun : ∀ k, k ∈ r'.haveRun ↔ k ∈ r.haveRun ∨ e.admits k
  fresh : ∀ k, e.admits k → k ∉ r.haveRun
  selective : r'.selective = true ↔ r.selective = true ∨ ∃ k, e.selects k
  selection : ∀ k, k ∈ r'.selection ↔ e.selects k ∨ (k ∈ r.selection ∧ ¬ e.asks k)

/-- A specification names a key, which is chosen, or there is something wrong with it and the registry
stays as it is. -/
theorem select_cases (r : Registry) (spec : String) :
    (∃ f, r.select spec = (.error f, r)) ∨
      ∃ j, r.select spec = (.ok (r.identity j), r.choose j) := by
  unfold select
  cases r.readSpec spec with
  | error f => exact Or.inl ⟨f, rfl⟩
  | ok j => exact Or.inr ⟨j, rfl⟩

theorem effect_select (r : Registry) (spec : String) :
    r.Effect (r.ask (.select spec)) ((Query.select spec).serve r).2 := by
  have hadmits : ∀ k, (r.ask (.select spec)).admits k = false := fun k => rfl
  have hasks : ∀ k, (r.ask (.select spec)).asks k = false := fun k => rfl
  rcases r.select_cases spec with ⟨f, hf⟩ | ⟨j, hj⟩
  · have hselects : ∀ k, (r.ask (.select spec)).selects k = false := by
      intro k
      simp only [ask, Query.serve, hf, Event.selects]
    simp only [Query.serve, hf]
    exact ⟨rfl, by simp [hadmits], by simp [hadmits], by simp [hselects],
      by simp [hselects, hasks]⟩
  · have hselects : ∀ k, (r.ask (.select spec)).selects k = (j == k) := by
      intro k
      simp only [ask, Query.serve, hj, Event.selects]
      rfl
    simp only [Query.serve, hj]
    refine ⟨rfl, by simp [hadmits, choose], by simp [hadmits], ?_, fun k => ?_⟩
    · have hsome : ∃ k, (r.ask (.select spec)).selects k := ⟨j, by simp [hselects]⟩
      simp [choose, hsome]
    · rw [hselects, hasks, beq_iff_eq, eq_comm]
      simp [choose]

theorem effect_enroll (hr : ∀ j ∈ r.selection, r.selective = true) (k : Key) :
    r.Effect (r.ask (.enroll k)) ((Query.enroll k).serve r).2 := by
  have hselects : ∀ j, (r.ask (.enroll k)).selects j = false := fun j => rfl
  have hasks : ∀ j, (r.ask (.enroll k)).asks j = (k == j) := fun j => rfl
  have hspend : ∀ j, j ∈ (r.spend k).selection ↔ j ∈ r.selection ∧ ¬ (k == j) = true := by
    intro j
    rw [mem_spend hr, beq_iff_eq, ne_comm]
  rcases r.enroll_cases k with ⟨hs, he⟩ | ⟨hs, hk, he⟩ | ⟨hs, hk, he⟩
  · -- the key is not selected, so that there is nothing to be used up
    have hadmits : ∀ j, (r.ask (.enroll k)).admits j = false := by
      intro j
      simp only [ask, Query.serve, he, Event.admits]
    have hnot := (isSelected_eq_false.mp hs).2
    simp only [Query.serve, he]
    refine ⟨rfl, by simp [hadmits], by simp [hadmits], by simp [hselects], fun j => ?_⟩
    rw [hselects, hasks]
    have hne : j ∈ r.selection → ¬ (k == j) = true := by
      rintro hj hkj
      exact hnot (beq_iff_eq.mp hkj ▸ hj)
    simpa using hne
  · have hadmits : ∀ j, (r.ask (.enroll k)).admits j = false := by
      intro j
      simp only [ask, Query.serve, he, Event.admits]
    simp only [Query.serve, he]
    refine ⟨r.spend_group k, by simp [hadmits], by simp [hadmits], ?_, fun j => ?_⟩
    · simp [hselects]
    · rw [hselects, hasks, hspend]
      simp
  · have hadmits : ∀ j, (r.ask (.enroll k)).admits j = (k == j) := by
      intro j
      simp only [ask, Query.serve, he, Event.admits]
    simp only [Query.serve, he]
    refine ⟨r.spend_group k, fun j => ?_, fun j hj => ?_, ?_, fun j => ?_⟩
    · rw [hadmits, beq_iff_eq, or_comm, eq_comm]
      simp [record]
    · rw [hadmits, beq_iff_eq] at hj
      exact hj ▸ hk
    · simp [hselects, record]
    · rw [hselects, hasks]
      simpa [record] using hspend j

/-! ## What a history says -/

/-- The key was selected, and behind the last selection of it nobody asked for its admission. -/
def Pending (k : Key) (h : List Event) : Prop :=
  ∃ a e b, h = a ++ e :: b ∧ e.selects k ∧ ∀ e' ∈ b, ¬ e'.selects k ∧ ¬ e'.asks k

theorem pending_concat : Pending k (h ++ [e]) ↔ e.selects k ∨ (Pending k h ∧ ¬ e.asks k) := by
  constructor
  · rintro ⟨a, e₀, b, hh, hsel, hb⟩
    rcases List.eq_nil_or_concat b with rfl | ⟨b, e₁, rfl⟩
    · obtain ⟨-, he⟩ := List.append_inj' hh rfl
      cases he
      exact Or.inl hsel
    · rw [List.concat_eq_append, ← List.cons_append, ← List.append_assoc] at hh
      obtain ⟨rfl, he⟩ := List.append_inj' hh rfl
      cases he
      have hlast := hb e (by simp)
      exact Or.inr ⟨⟨a, e₀, b, rfl, hsel, fun e' he' => hb e' (by simp [he'])⟩, hlast.2⟩
  · rintro (hsel | ⟨⟨a, e₀, b, rfl, hsel, hb⟩, hasks⟩)
    · exact ⟨h, e, [], rfl, hsel, by simp⟩
    · by_cases he : e.selects k
      · exact ⟨a ++ e₀ :: b, e, [], rfl, he, by simp⟩
      · refine ⟨a, e₀, b ++ [e], by simp, hsel, fun e' he' => ?_⟩
        rcases List.mem_append.mp he' with he' | he'
        · exact hb e' he'
        · rw [List.mem_singleton.mp he']
          exact ⟨he, hasks⟩

/-- The state of a registry is what its history says. -/
structure Records (h : List Event) (r : Registry) : Prop where
  haveRun : ∀ k, k ∈ r.haveRun ↔ ∃ e ∈ h, e.admits k
  once : ∀ k, h.countP (·.admits k) ≤ 1
  selective : r.selective = true ↔ ∃ e ∈ h, ∃ k, e.selects k
  selection : ∀ k, k ∈ r.selection ↔ Pending k h

/-- Something is selected only in a registry that selects. -/
theorem Records.coherent (hr : Records h r) : ∀ k ∈ r.selection, r.selective = true := by
  intro k hk
  obtain ⟨a, e, b, rfl, hsel, -⟩ := (hr.selection k).mp hk
  exact hr.selective.mpr ⟨e, by simp, k, hsel⟩

theorem Records.effect (hr : Records h r) (q : Query) : r.Effect (r.ask q) (q.serve r).2 := by
  cases q with
  | select spec => exact effect_select r spec
  | enroll k => exact effect_enroll hr.coherent k

/-- **One call** keeps the state what the history says. -/
theorem Records.asked (hr : Records h r) (q : Query) :
    Records (h ++ [r.ask q]) (q.serve r).2 := by
  have heffect := hr.effect q
  refine ⟨fun k => ?_, fun k => ?_, ?_, fun k => ?_⟩
  · rw [heffect.haveRun, hr.haveRun]
    simp [or_and_right, exists_or]
  · rw [List.countP_append, List.countP_singleton]
    split
    · rename_i hadmits
      -- a key that is admitted now was never admitted before
      have hnone : h.countP (·.admits k) = 0 := by
        refine List.countP_eq_zero.mpr fun e he hk => ?_
        exact heffect.fresh k hadmits ((hr.haveRun k).mpr ⟨e, he, hk⟩)
      omega
    · exact hr.once k
  · rw [heffect.selective, hr.selective]
    simp [or_and_right, exists_or]
  · rw [heffect.selection, hr.selection, pending_concat]

/-- **Any calls** do. -/
theorem Records.served : ∀ (qs : List Query) {h : List Event} {r : Registry}, Records h r →
    Records (h ++ r.history qs) (r.served qs)
  | [], h, r, hr => by
    rw [history, List.append_nil]
    exact hr
  | q :: qs, h, r, hr => by
    have hrest := Records.served qs (hr.asked q)
    rw [List.append_assoc] at hrest
    exact hrest

theorem records_ofGroup (group : String) : Records [] (ofGroup group) :=
  ⟨fun k => ⟨fun hk => absurd hk (KeySet.not_mem_empty k), by simp⟩, by simp,
    by simp [ofGroup], fun k => ⟨fun hk => absurd hk (KeySet.not_mem_empty k), by simp [Pending]⟩⟩

theorem group_served : ∀ (qs : List Query) (r : Registry), (r.served qs).group = r.group
  | [], _ => rfl
  | q :: qs, r => by
    refine (group_served qs (q.serve r).2).trans ?_
    cases q with
    | select spec => exact (effect_select r spec).group
    | enroll k =>
      rcases r.enroll_cases k with ⟨-, he⟩ | ⟨-, -, he⟩ | ⟨-, -, he⟩
      all_goals simp [Query.serve, he, record]

/-- What is raised for a test that has run before: a duplicate, as long as its number can be written. -/
theorem exception_duplicate (test : Identity) :
    (Fault.duplicate test).exception.kind =
      if test.number < 10 ^ Text.maxDigits then .duplicateTestIdentity else .valueError := by
  rw [Fault.exception]
  by_cases h : test.number < 10 ^ Text.maxDigits
  · rw [if_pos (Identity.isWritable_iff.mpr h), if_pos h]
    rfl
  · rw [if_neg (mt Identity.isWritable_iff.mp h), if_neg h]
    rfl

theorem select_of_error {spec : String} {f : Fault} (hf : (r.select spec).1 = .error f) :
    (r.select spec).2 = r := by
  rcases r.select_cases spec with ⟨f, hs⟩ | ⟨j, hs⟩
  · rw [hs]
  · rw [hs] at hf
    cases hf

/-- **A registry is what it has been asked.**  Behind any calls, some of which may have raised
something: the tests that have run are those whose admission returned true, each once; the registry
selects if some specification was selected; a key is selected if it was and nobody asked for its
admission since.  In that state an admission returns false exactly if the registry selects and the
key is not selected, and nothing changes; it raises something exactly if it does not return false and
the test has run, and at most the selection of that key is used up.  What it raises is a duplicate if
the number has at most `Text.maxDigits` digits, and an error of its value if it has more.  A selection
that raises something changes nothing. -/
theorem history_decides (group : String) (qs : List Query) :
    let h := (ofGroup group).history qs
    let r := (ofGroup group).served qs
    (∀ k, k ∈ r.haveRun ↔ ∃ e ∈ h, e.admits k) ∧
    (∀ k, h.countP (·.admits k) ≤ 1) ∧
    (r.selective = true ↔ ∃ e ∈ h, ∃ k, e.selects k) ∧
    (∀ k, k ∈ r.selection ↔ Pending k h) ∧
    (∀ k, ((r.enroll k).1 = .ok false ↔ r.selective = true ∧ k ∉ r.selection) ∧
      ((r.enroll k).1 = .ok false → (r.enroll k).2 = r)) ∧
    (∀ k f, ((r.enroll k).1 = .error f ↔ (r.enroll k).1 ≠ .ok false ∧ k ∈ r.haveRun ∧
        f = .duplicate ⟨group, k.1, k.2⟩) ∧
      ((r.enroll k).1 = .error f →
        f.exception.kind = (if k.2 < 10 ^ Text.maxDigits then .duplicateTestIdentity
          else .valueError) ∧
        ∃ selection, (r.enroll k).2 = { r with selection } ∧
          (∀ j ∈ selection, j ∈ r.selection) ∧ ∀ j ≠ k, j ∈ r.selection → j ∈ selection)) ∧
    (∀ spec f, (r.select spec).1 = .error f → (r.select spec).2 = r) ∧
    ∀ k, r.isSelected k = false ↔ (r.enroll k).1 = .ok false := by
  intro h r
  obtain ⟨hrun, honce, hselective, hselection⟩ : Records h r :=
    Records.served qs (records_ofGroup group)
  have hgroup : r.group = group := group_served qs _
  refine ⟨hrun, honce, hselective, hselection, fun k => ?_, fun k f => ⟨?_, fun hf => ⟨?_, ?_⟩⟩,
    fun spec f => select_of_error, fun k => enroll_eq_false.symm⟩
  · exact ⟨enroll_eq_false.trans isSelected_eq_false, enroll_of_false⟩
  · rw [enroll_eq_error, Ne, enroll_eq_false, Bool.not_eq_false, identity, hgroup]
  · obtain ⟨-, -, rfl⟩ := enroll_eq_error.mp hf
    exact exception_duplicate _
  · exact enroll_of_error hf

/-- Two tests that have run come again: the number of one has too many digits.  A specification
without a number leaves everything as it is. -/
theorem history_decides_huge :
    let r := (ofGroup "g").served [.enroll ("s", 1), .enroll ("s", 10 ^ Text.maxDigits)]
    (∃ f, (r.enroll ("s", 1)).1 = .error f ∧ f.exception.kind = .duplicateTestIdentity) ∧
    (∃ f, (r.enroll ("s", 10 ^ Text.maxDigits)).1 = .error f ∧ f.exception.kind = .valueError) ∧
    (r.select "s").2 = r := by
  have hall := history_decides "g" [.enroll ("s", 1), .enroll ("s", 10 ^ Text.maxDigits)]
  intro r
  have hopen : r.selective = false := by decide +kernel
  have hone : ("s", 1) ∈ r.haveRun := by decide +kernel
  have hmany : ("s", 10 ^ Text.maxDigits) ∈ r.haveRun := by decide +kernel
  have hspec : (r.select "s").1 = .error (.noNumber "s") := rfl
  dsimp only [r] at hall hopen hone hmany hspec ⊢
  clear r
  generalize (ofGroup "g").served [.enroll ("s", 1), .enroll ("s", 10 ^ Text.maxDigits)] = r at *
  obtain ⟨-, -, -, -, hskip, hagain, hselect, -⟩ := hall
  have hraises : ∀ k, k ∈ r.haveRun → ∃ f, (r.enroll k).1 = .error f ∧ f.exception.kind =
      if k.2 < 10 ^ Text.maxDigits then .duplicateTestIdentity else .valueError := by
    intro k hk
    have hnot : (r.enroll k).1 ≠ .ok false := fun hf =>
      Bool.false_ne_true (hopen.symm.trans ((hskip k).1.mp hf).1)
    have herror := (hagain k _).1.mpr ⟨hnot, hk, rfl⟩
    exact ⟨_, herror, ((hagain k _).2 herror).1⟩
  have hfirst := hraises ("s", 1) hone
  rw [if_pos (Nat.one_lt_pow (by decide) (by decide))] at hfirst
  have hhuge := hraises ("s", 10 ^ Text.maxDigits) hmany
  rw [if_neg (Nat.lt_irrefl _)] at hhuge
  exact ⟨hfirst, hhuge, hselect "s" (.noNumber "s") hspec⟩

end Registry

end TestRig
