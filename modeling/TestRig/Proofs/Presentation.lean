import TestRig.Proofs.Kinship
import TestRig.Proofs.Spawning

/-!
# TestRig.Proofs.Presentation — what notes and colours change

Whether notes are written and whether the console is a terminal decides on what the console shows and
on nothing else.  The console with notes and colours shows the plain text with notes put in between
its chunks, with colour codes around the tag that begins an outcome, and with colour codes around the
rows of passed and failed tests in a summary.

* `Embellished`: a text with notes and colours put in.
* `embellished_renderAll`: what a console shows is embellished, whether it shows colours or not.
* `Rig.kin_of_set`: rigs that are set up with and without notes are kin.
* `Rig.set_without_notes`: with `-v` on a command line and without it, such rigs are set up.
* `Rig.presentation`: they look the same in every session but for that.
-/

namespace TestRig

/-! ## Texts with notes and colours -/

/-- The tags that are coloured, with their colours. -/
def coloredTags : List (Color × String) := [(.green, "PASS"), (.red, "FAIL")]

/-- The plain chunks `cs` with notes put in between, and with colour codes around the tags that begin
outcomes and around the rows that count them. -/
inductive Embellished : List Chunk → String → Prop
  | nil : Embellished [] ""
  | note {cs : List Chunk} {t : String} (s : String) (h : Embellished cs t) :
      Embellished cs ("isotest: " ++ s ++ "\n" ++ t)
  | plain {cs : List Chunk} {t : String} (c : Chunk) (h : Embellished cs t) :
      Embellished (c :: cs) (c.render false ++ t)
  | tag {cs : List Chunk} {t : String} {color : Color} {tag : String}
      (hc : (color, tag) ∈ coloredTags) (rest : String) (h : Embellished cs t) :
      Embellished (.outcome (tag ++ rest) :: cs) (color.paint tag ++ rest ++ t)
  | row {cs : List Chunk} {t : String} {color : Color} {tag : String}
      (hc : (color, tag) ∈ coloredTags) (n : Nat) (h : Embellished cs t) :
      Embellished (.tally color (Rig.row tag n) :: cs) (color.paint (Rig.row tag n) ++ "\n" ++ t)

/-- A tag at the beginning is coloured; without one, the text is left as it is. -/
theorem Chunk.paintTag_cases (s : String) :
    (∃ color tag rest, (color, tag) ∈ coloredTags ∧ s = tag ++ rest ∧
      paintTag s = color.paint tag ++ rest) ∨
    ((∀ p ∈ coloredTags, ¬ p.2.toList <+: s.toList) ∧ paintTag s = s) := by
  have htag : ∀ {tag : String} {r : List Char}, Text.dropStart? tag.toList s.toList = some r →
      s = tag ++ String.ofList r := by
    intro tag r hr
    rw [← String.toList_inj, String.toList_append, String.toList_ofList]
    exact Text.dropStart?_eq_some.mp hr
  have hno : ∀ {tag : String}, Text.dropStart? tag.toList s.toList = none →
      ¬ tag.toList <+: s.toList := by
    rintro tag hnone ⟨r, hr⟩
    rw [Text.dropStart?_eq_some.mpr hr.symm] at hnone
    cases hnone
  unfold paintTag
  cases hpass : Text.dropStart? "PASS".toList s.toList with
  | some r => exact Or.inl ⟨.green, "PASS", _, by decide, htag hpass, rfl⟩
  | none =>
    cases hfail : Text.dropStart? "FAIL".toList s.toList with
    | some r => exact Or.inl ⟨.red, "FAIL", _, by decide, htag hfail, rfl⟩
    | none =>
      refine Or.inr ⟨fun p hp => ?_, rfl⟩
      rcases List.mem_cons.mp hp with rfl | hp
      · exact hno hpass
      · rcases List.mem_singleton.mp hp with rfl
        exact hno hfail

/-- An outcome is shown as it is, or its tag is coloured. -/
theorem embellished_paintTag {cs : List Chunk} {t : String} (s : String) (h : Embellished cs t) :
    Embellished (.outcome s :: cs) (Chunk.paintTag s ++ t) := by
  rcases Chunk.paintTag_cases s with ⟨color, tag, rest, htag, rfl, hpaint⟩ | ⟨-, hpaint⟩
  · rw [hpaint]
    exact .tag htag rest h
  · rw [hpaint]
    exact .plain (.outcome s) h

/-- **What a console shows is embellished**: what is between its notes, with colours or without. -/
theorem embellished_renderAll (colored : Bool) : ∀ {cs : List Chunk}, (∀ c ∈ cs, c.IsProper) →
    Embellished (cs.filter (!·.isNote)) (Chunk.renderAll colored cs)
  | [], _ => .nil
  | c :: cs, h => by
    have hrest := embellished_renderAll colored fun c' hc' => h c' (List.mem_cons_of_mem _ hc')
    have hc : c.IsProper := h c List.mem_cons_self
    rw [Chunk.renderAll_cons]
    cases c with
    | note s => exact .note s hrest
    | text s => exact .plain (.text s) hrest
    | line s => exact .plain (.line s) hrest
    | outcome s =>
      cases colored with
      | false => exact .plain (.outcome s) hrest
      | true => exact embellished_paintTag s hrest
    | tally color s =>
      cases colored with
      | false => exact .plain (.tally color s) hrest
      | true =>
        obtain ⟨n, ⟨rfl, rfl⟩ | ⟨rfl, rfl⟩⟩ := hc
        · exact .row (by decide) n hrest
        · exact .row (by decide) n hrest

/-! ## Rigs with notes and without -/

namespace Journal

/-- What is shown makes no difference to whether and where the log is opened. -/
theorem openLog_eq (colored verbose : Bool) (disk : Disk) (path : Option Path) :
    openLog colored verbose disk path =
      (openLog false false disk path).map fun j => { j with colored, verbose } := by
  unfold openLog
  cases path with
  | none => rfl
  | some path =>
    dsimp only
    cases disk.openToAppend path <;> rfl

/-- A journal that is opened, as the one that would be opened for a plain console. -/
theorem openLog_eq_ok {colored verbose : Bool} {disk : Disk} {path : Option Path} {j : Journal} :
    openLog colored verbose disk path = .ok j ↔
      ∃ k, openLog false false disk path = .ok k ∧ j = { k with colored, verbose } := by
  rw [openLog_eq]
  cases openLog false false disk path with
  | error f => simp [Except.map]
  | ok k => simp [Except.map, eq_comm]

/-- A console that nothing has been written to. -/
theorem Tidy.of_empty {j : Journal} (hs : j.Settled) (hc : j.console = {}) : j.Tidy := by
  have hi : j.console.items = [] := by rw [hc]; rfl
  refine ⟨hs, fun c hmem => ?_, fun _ => ?_⟩
  · rw [hi] at hmem
    cases hmem
  · rw [said, hi]
    rfl

end Journal

/-- What a moment leaves besides the text on the console. -/
structure Imprint where
  answer : Answer
  executed : Nat
  count : Nat
  passed : Nat
  failed : Nat
  selection : KeySet
  haveRun : KeySet
  exitStatus : ExitStatus
  disk : Disk

def Moment.imprint (m : Moment) : Imprint :=
  { answer := m.answer, executed := m.after.executed, count := m.after.count
    passed := m.after.passed, failed := m.after.failed
    selection := m.after.registry.selection, haveRun := m.after.registry.haveRun
    exitStatus := m.after.exitStatus, disk := m.after.journal.disk }

/-- Rigs with the same books and the same disk leave the same. -/
theorem Moment.imprint_eq {m m' : Moment} (hanswer : m'.answer = m.answer)
    (hbooks : m.after.SameBooks m'.after) (hdisk : m'.after.journal.disk = m.after.journal.disk) :
    m'.imprint = m.imprint := by
  simp only [Moment.imprint, hanswer, hdisk, hbooks.executed, hbooks.count, hbooks.passed,
    hbooks.failed, hbooks.registry, hbooks.exitStatus]

namespace Rig

variable {r r' : Rig} {s : Setup}

theorem Kin.imprint (h : r.Kin r') (q : Request) : (r'.moment q).imprint = (r.moment q).imprint := by
  obtain ⟨hanswer, hkin⟩ := h.moment q
  exact Moment.imprint_eq hanswer hkin.books hkin.host.journal.disk

theorem Kin.session : ∀ (qs : List Request) {r r' : Rig}, r.Kin r' →
    (r'.session qs).map Moment.imprint = (r.session qs).map Moment.imprint
  | [], _, _, _ => rfl
  | q :: qs, _, _, h => List.cons_eq_cons.mpr ⟨h.imprint q, Kin.session qs (h.moment q).2⟩

theorem colored_of_set (h : Rig.set s = .ok r) : r.journal.colored = s.terminal := by
  obtain ⟨c, a, g, j, -, -, -, hj, rfl⟩ := set_eq_ok.mp h
  obtain ⟨k, -, rfl⟩ := Journal.openLog_eq_ok.mp hj
  rfl

/-- **Rigs that are set up with notes or colours and without** are kin. -/
theorem kin_of_set {argv : List String} {terminal : Bool} (h : Rig.set s = .ok r)
    (h' : Rig.set { s with argv, terminal } = .ok r')
    (hc : ∃ v, r'.configuration = { r.configuration with verbose := v }) : r.Kin r' := by
  have hfresh := fresh_of_set h
  have hfresh' := fresh_of_set h'
  have hsaid : r'.journal.said = r.journal.said := by
    rw [Journal.said, Journal.said, hfresh.console, hfresh'.console]
  obtain ⟨c, a, g, j, -, ha, hg, hj, rfl⟩ := set_eq_ok.mp h
  obtain ⟨c', a', g', j', -, ha', hg', hj', rfl⟩ := set_eq_ok.mp h'
  obtain ⟨v, rfl⟩ : ∃ v, c' = { c with verbose := v } := hc
  obtain rfl : a = a' := Except.ok.inj (ha.symm.trans ha')
  obtain rfl : g = g' := Except.ok.inj (hg.symm.trans hg')
  obtain ⟨k, hk, rfl⟩ := Journal.openLog_eq_ok.mp hj
  obtain ⟨k', hk', rfl⟩ := Journal.openLog_eq_ok.mp hj'
  obtain rfl : k = k' := Except.ok.inj (hk.symm.trans hk')
  exact ⟨⟨v, rfl⟩, rfl, rfl, rfl, rfl, rfl, rfl, rfl,
    ⟨⟨.of_empty hfresh.settled hfresh.console, .of_empty hfresh'.settled hfresh'.console,
      hsaid, rfl, rfl⟩, rfl, rfl, rfl, rfl,
      fun _ hc => absurd hc List.not_mem_nil⟩⟩

/-- **A rig that is set up with `-v`** is set up without it too, with the same options else. -/
theorem set_without_notes {program : String} {P Q : List String} {terminal : Bool}
    (h' : Rig.set { s with argv := program :: (P ++ "-v" :: Q), terminal } = .ok r') :
    ∃ r, Rig.set { s with argv := program :: (P ++ Q) } = .ok r ∧
      r'.configuration = { r.configuration with verbose := true } := by
  obtain ⟨c', a, g, j', hc', ha, hg, hj', rfl⟩ := set_eq_ok.mp h'
  obtain ⟨c, hc, rfl⟩ := Configuration.ofArgv_insert_verbose hc'
  obtain ⟨k, hk, -⟩ := Journal.openLog_eq_ok.mp hj'
  exact ⟨_, set_eq_ok.mpr ⟨c, a, g, _, hc, ha, hg, Journal.openLog_eq_ok.mpr ⟨k, hk, rfl⟩, rfl⟩, rfl⟩

/-- What the console of a rig shows that is kin to one with a plain console. -/
theorem Kin.embellished (h : r.Kin r') (hverbose : r.journal.verbose = false)
    (hcolored : r.journal.colored = false) :
    r.journal.consoleText = Chunk.renderAll false r.journal.console.items ∧
      Embellished r.journal.console.items r'.journal.consoleText := by
  have hkin : r.journal.Kin r'.journal := h.host.journal
  have hitems : r'.journal.console.items.filter (!·.isNote) = r.journal.console.items :=
    hkin.said.trans (hkin.tidy.unnoted hverbose)
  refine ⟨?_, hitems ▸ embellished_renderAll _ hkin.tidy'.proper⟩
  rw [Journal.consoleText, Journal.textFrom, hcolored]
  rfl

/-- **Notes and colours change what the console shows and nothing else.**  Two rigs are set up that
differ in whether notes are written and in whether the console is a terminal.  Then the same requests
are answered alike one by one, and leave the same numbers, the same keys, the same exit status and the
same log, in any mode and whatever calls to the system fail; and what the one shows is what the other
shows on a plain console, with notes and colours put in. -/
theorem presentation {argv : List String} {terminal : Bool} (h : Rig.set s = .ok r)
    (h' : Rig.set { s with argv, terminal } = .ok r')
    (hc : ∃ v, r'.configuration = { r.configuration with verbose := v }) (qs : List Request) :
    (r'.session qs).map Moment.imprint = (r.session qs).map Moment.imprint ∧
    (r'.served qs).exitStatus = (r.served qs).exitStatus ∧
    (r'.served qs).journal.disk = (r.served qs).journal.disk ∧
    (r.configuration.verbose = false → s.terminal = false →
      (r.served qs).journal.consoleText =
          Chunk.renderAll false (r.served qs).journal.console.items ∧
        Embellished (r.served qs).journal.console.items (r'.served qs).journal.consoleText) := by
  have hkin := kin_of_set h h' hc
  have hserved := hkin.served qs
  refine ⟨hkin.session qs, hserved.exitStatus, hserved.host.journal.disk, ?_⟩
  intro hverbose hterminal
  have hfresh := fresh_of_set h
  have hkeeps := keeps_served_all h qs
  refine hserved.embellished ?_ ?_
  · rw [hkeeps.verbose, hfresh.verbose, hverbose]
  · rw [hkeeps.colored, colored_of_set h, hterminal]

/-- A test that fails and the summary, on a plain console and on a terminal with notes. -/
theorem presentation_failure :
    let qs : List Request := [.run "s" (.int 1) fun _ => .raised (.of .testFailure "no"), .summary]
    ∃ r r', Rig.set (.bare ["t"]) = .ok r ∧
      Rig.set { Setup.bare ["t", "-v"] with terminal := true } = .ok r' ∧
      (r'.session qs).map Moment.imprint = (r.session qs).map Moment.imprint ∧
      Embellished (r.served qs).journal.console.items (r'.served qs).journal.consoleText := by
  intro qs
  obtain ⟨r', hr', -⟩ := exists_set (s := { Setup.bare ["t", "-v"] with terminal := true })
    (p := fun _ => True) (by decide +kernel)
  obtain ⟨r₁, hr₁, hv⟩ := exists_set (s := .bare ["t"])
    (p := fun r => r.configuration.verbose = false) (by decide +kernel)
  obtain ⟨r, hr, hc⟩ := set_without_notes (s := .bare ["t"]) (P := []) (Q := []) hr'
  obtain rfl : r = r₁ := Except.ok.inj (hr.symm.trans hr₁)
  obtain ⟨hsession, -, -, hconsole⟩ := presentation hr hr' ⟨true, hc⟩ qs
  exact ⟨r, r', hr, hr', hsession, (hconsole hv rfl).2⟩

end Rig

end TestRig
