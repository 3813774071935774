import TestRig.Classifier

/-!
# TestRig.Proofs.Outcomes — the form of an outcome

Whoever reports the outcome of a test, it begins with `PASS` or `FAIL` and it ends its line.

* `Verdict.isOutcome_text` and `Classifier.isOutcome_report`: what the process that ran a body says.
* `Chunk.ended_render`: with colours, too, an outcome ends its line.
-/

namespace TestRig

/-- A text that begins with `PASS` or `FAIL` and ends its line. -/
def IsOutcome (b : String) : Prop := ∃ m, b = "PASS" ++ m ++ "\n" ∨ b = "FAIL" ++ m ++ "\n"

/-- A text that leaves no line open. -/
def EndsLine (t : String) : Prop := t = "" ∨ ∃ u, t = u ++ "\n"

theorem EndsLine.append {s t : String} (hs : EndsLine s) (ht : EndsLine t) : EndsLine (s ++ t) := by
  rcases ht with rfl | ⟨u, rfl⟩
  · rwa [String.append_empty]
  · exact Or.inr ⟨s ++ u, by rw [String.append_assoc]⟩

/-- A failure with a reason. -/
theorem isOutcome_failure (a m z : String) : IsOutcome (("FAIL" ++ a) ++ m ++ (z ++ "\n")) :=
  ⟨a ++ m ++ z, Or.inr (by simp only [String.append_assoc])⟩

theorem IsOutcome.append {b : String} (h : IsOutcome b) (x : String) : IsOutcome (b ++ x ++ "\n") := by
  obtain ⟨m, rfl | rfl⟩ := h
  · exact ⟨m ++ "\n" ++ x, Or.inl (by simp only [String.append_assoc])⟩
  · exact ⟨m ++ "\n" ++ x, Or.inr (by simp only [String.append_assoc])⟩

/-! ## Who says it -/

theorem Verdict.isOutcome_text {v : Verdict} {b : String} (h : v.text = .ok b) : IsOutcome b := by
  have htext : ∀ remark : String, IsOutcome (if v.unexpected then
      s!"FAIL with exception{remark}:\n" ++ v.trailer else s!"FAIL{remark}\n") := by
    intro remark
    have hhead : IsOutcome s!"FAIL with exception{remark}:\n" :=
      isOutcome_failure " with exception" remark ":"
    split
    · unfold trailer
      split
      · rwa [String.append_empty]
      · rw [← String.append_assoc]
        exact hhead.append _
    · exact isOutcome_failure "" remark ""
  unfold text at h
  split at h
  · exact Except.ok.inj h ▸ ⟨"", Or.inl rfl⟩
  · cases hr : v.remark with
    | none => simp [hr, Exception.orUnwritable] at h
    | some remark =>
      simp only [hr, Option.map_some, Exception.orUnwritable, Except.ok.injEq] at h
      exact h ▸ htext remark

theorem Classifier.isOutcome_report {d : Dumper} {name : String} {e : Ending} {b : String}
    (h : (report d name e).2 = some b) : IsOutcome b := by
  unfold report at h
  cases hc : classify d name e with
  | ok v =>
    cases ht : v.text with
    | ok text =>
      simp only [hc, ht, Option.some.injEq] at h
      exact h ▸ Verdict.isOutcome_text ht
    | error x => simp [hc, ht] at h
  | error x =>
    simp only [hc, Option.ite_none_right_eq_some, Option.some.injEq] at h
    exact h.2 ▸ isOutcome_failure " (" "interrupted" ")"

/-! ## How it looks -/

namespace Chunk

variable (colored : Bool)

theorem renderAll_singleton (c : Chunk) : renderAll colored [c] = c.render colored := by
  simp [renderAll]

theorem renderAll_append (cs cs' : List Chunk) :
    renderAll colored (cs ++ cs') = renderAll colored cs ++ renderAll colored cs' := by
  simp [renderAll]

theorem renderAll_cons (c : Chunk) (cs : List Chunk) :
    renderAll colored (c :: cs) = c.render colored ++ renderAll colored cs := by
  simp [renderAll]

end Chunk

/-- With colours, too, an outcome ends its line. -/
theorem Chunk.ended_render (colored : Bool) {b : String} (h : IsOutcome b) :
    ∃ u, render colored (.outcome b) = u ++ "\n" := by
  obtain ⟨m, hb⟩ := h
  cases colored with
  | false => rcases hb with rfl | rfl <;> exact ⟨_, rfl⟩
  | true =>
    show ∃ u, paintTag b = u ++ "\n"
    have htag : ∀ tag : String, b = tag ++ m ++ "\n" →
        Text.dropStart? tag.toList b.toList = some (m ++ "\n").toList := by
      rintro tag rfl
      rw [Text.dropStart?_eq_some]
      simp
    have hended : ∀ s : String, s ++ String.ofList (m ++ "\n").toList = s ++ m ++ "\n" := by
      intro s
      rw [String.ofList_toList, String.append_assoc]
    unfold paintTag
    rcases hb with hb | hb
    · simp only [htag "PASS" hb]
      exact ⟨_, hended _⟩
    · have hpass : Text.dropStart? "PASS".toList b.toList = none := by
        rw [hb]
        simp [Text.dropStart?]
      simp only [hpass, htag "FAIL" hb]
      exact ⟨_, hended _⟩

end TestRig
