import TestRig.Supervision.Fork

/-!
# TestRig.Proofs.Entries — what a test leaves in the journal

All that is written to a journal is a list of entries: the name of a test, its outcome, the end of a
line without an outcome, notes, and chunks for the console alone.  Every entry is flushed when it has
been written, so a journal is settled between entries: nothing is pending in it.  What another process
does to its sinks meanwhile is an entry too.

* `Journal.Other`: what another process has done.
* `Journal.enterAll` writes a list of entries.
* `Journal.items_enterAll` and `Journal.logText_enterAll`: the entries are added at the end of the
  console and, without the notes, at the end of the log.
-/

namespace TestRig

namespace Journal

/-! ## Settled journals -/

/-- Nothing is pending in a journal. -/
structure Settled (j : Journal) : Prop where
  console : j.console.pending = []
  log : ∀ l ∈ j.log, l.sink.pending = []

/-- Two journals are kept in the same places. -/
structure Alike (j j' : Journal) : Prop where
  colored : j'.colored = j.colored
  verbose : j'.verbose = j.verbose
  log : j'.log.map (·.location) = j.log.map (·.location)

def logText (j : Journal) : Option String := j.log.bind fun l => j.disk.textAt l.location

variable {j j' : Journal}

theorem Alike.refl (j : Journal) : j.Alike j := ⟨rfl, rfl, rfl⟩

theorem Alike.trans {j'' : Journal} (h : j.Alike j') (h' : j'.Alike j'') : j.Alike j'' :=
  ⟨h'.colored.trans h.colored, h'.verbose.trans h.verbose, h'.log.trans h.log⟩

theorem settled_flush (j : Journal) : j.flush.Settled := by
  cases hl : j.log with
  | none => exact ⟨by simp [flush, flushLog, flushConsole, hl, Sink.flush],
      by simp [flush, flushLog, flushConsole, hl]⟩
  | some l => exact ⟨by simp [flush, flushLog, flushConsole, hl, Sink.flush],
      by simp [flush, flushLog, flushConsole, hl, Sink.flush]⟩

theorem alike_flush (j : Journal) : j.Alike j.flush := by
  cases hl : j.log <;> exact ⟨by simp [flush, flushLog, flushConsole, hl],
    by simp [flush, flushLog, flushConsole, hl], by simp [flush, flushLog, flushConsole, hl]⟩

theorem Settled.flushConsole (h : j.Settled) : j.flushConsole = j := by
  rw [Journal.flushConsole, Sink.flush_of_pending h.console]

theorem Settled.flush (h : j.Settled) : j.flush = j := by
  rw [Journal.flush, h.flushConsole, flushLog]
  obtain ⟨colored, verbose, console, _ | ⟨location, sink⟩, disk⟩ := j
  · rfl
  · have hp : sink.pending = [] := h.log _ rfl
    simp only [Sink.flush_of_pending hp, hp, String.join_nil, Disk.append_empty]

theorem Settled.close (h : j.Settled) : j.close = { j with log := none } := by
  rw [Journal.close, h.flush]

/-! ## What another process has done -/

/-- Something that another process has done to its sinks. -/
inductive Other
  | took (c : Chunk)
  | tookLog (s : String)
  | showed (cs : List Chunk)
  | appended (l : Location) (texts : List String)

/-- What it has shown on the console. -/
def Other.chunks : Other → List Chunk
  | showed cs => cs
  | _ => []

/-- What it has put at the end of the log. -/
def Other.logged : Other → String
  | appended _ texts => String.join texts
  | _ => ""

/-- It has appended to the log of this journal, if to any file. -/
def Other.Fits (j : Journal) : Other → Prop
  | appended l _ => ∀ f ∈ j.log, f.location = l
  | _ => True

def see (j : Journal) : Other → Journal
  | .took c => j.take c
  | .tookLog s => j.takeLog s
  | .showed cs => j.show cs
  | .appended l texts => j.append l texts

theorem Settled.see (h : j.Settled) (o : Other) : (j.see o).Settled := by
  cases o with
  | took c => exact ⟨h.console, h.log⟩
  | showed cs => exact ⟨h.console, h.log⟩
  | tookLog s =>
    refine ⟨h.console, fun l hl => ?_⟩
    obtain ⟨f, hf, rfl⟩ := Option.map_eq_some_iff.mp hl
    exact h.log f hf
  | appended l texts =>
    refine ⟨h.console, fun f hf => ?_⟩
    obtain ⟨g, hg, rfl⟩ := Option.map_eq_some_iff.mp hf
    exact h.log g hg

theorem alike_see (j : Journal) (o : Other) : j.Alike (j.see o) := by
  cases o with
  | took c => exact ⟨rfl, rfl, rfl⟩
  | showed cs => exact ⟨rfl, rfl, rfl⟩
  | tookLog s => exact ⟨rfl, rfl, by cases hl : j.log <;> simp [see, takeLog, hl]⟩
  | appended l texts => exact ⟨rfl, rfl, by cases hl : j.log <;> simp [see, append, hl]⟩

theorem items_see (h : j.Settled) (o : Other) :
    (j.see o).console.items = j.console.items ++ o.chunks := by
  have hp := h.console
  cases o <;> simp [see, take, takeLog, «show», append, Sink.items, Other.chunks, hp]

theorem logText_see {o : Other} (h : o.Fits j) :
    (j.see o).logText = j.logText.map (· ++ o.logged) := by
  obtain ⟨colored, verbose, console, _ | f, disk⟩ := j
  · cases o <;> rfl
  · cases o with
    | took c => simp [see, take, logText, Other.logged]
    | showed cs => simp [see, «show», logText, Other.logged]
    | tookLog s => simp [see, takeLog, logText, Other.logged]
    | appended l texts =>
      obtain rfl : f.location = l := h f rfl
      simp [see, append, logText, Other.logged]

/-! ## Entries -/

/-- What is written at a time. -/
inductive Entry
  | name (test : Identity)
  | outcome (text : String)
  /-- The end of a line that has no outcome. -/
  | blank
  | note (s : String)
  /-- Chunks that go to the console alone. -/
  | aside (cs : List Chunk)
  | other (o : Other)

/-- Entries that report on a test that has been named. -/
inductive Entry.IsReport : Entry → Prop
  | outcome (text : String) : IsReport (.outcome text)
  | blank : IsReport .blank
  | note (s : String) : IsReport (.note s)

def Entry.chunks (verbose : Bool) : Entry → List Chunk
  | name test => [.text (test.name ++ ": ")]
  | outcome text => [.outcome text]
  | blank => [.text "\n"]
  | note s => if verbose then [.note s] else []
  | aside cs => cs
  | other o => o.chunks

def Entry.logged : Entry → String
  | name test => test.name ++ ": "
  | outcome text => text
  | blank => "\n"
  | note _ | aside _ => ""
  | other o => o.logged

def Entry.Fits (j : Journal) : Entry → Prop
  | other o => o.Fits j
  | _ => True

/-- Write an entry and flush it. -/
def enter (j : Journal) : Entry → Journal
  | .name test => Classifier.beginLine test j
  | .outcome text => Classifier.writeOutcome text j
  | .blank => (j.write "\n").flush
  | .note s => j.note s
  | .aside cs => (cs.foldl display j).flushConsole
  | .other o => j.see o

def enterAll (j : Journal) (es : List Entry) : Journal := es.foldl enter j

@[simp] theorem enterAll_nil (j : Journal) : j.enterAll [] = j := rfl

@[simp] theorem enterAll_cons (j : Journal) (e : Entry) (es : List Entry) :
    j.enterAll (e :: es) = (j.enter e).enterAll es := rfl

theorem enterAll_append (j : Journal) (es fs : List Entry) :
    j.enterAll (es ++ fs) = (j.enterAll es).enterAll fs := List.foldl_append

/-- A chunk and a text that are written to the two sinks and flushed. -/
theorem alike_put (j : Journal) (c : Chunk) (s : String) :
    j.Alike ((j.display c).record s).flush := by
  have h : j.Alike ((j.display c).record s) :=
    ⟨rfl, rfl, by cases hl : j.log <;> simp [record, display, hl]⟩
  exact h.trans (alike_flush _)

theorem items_put (j : Journal) (c : Chunk) (s : String) :
    ((j.display c).record s).flush.console.items = j.console.items ++ [c] := by
  have hf : ∀ j : Journal, j.flush.console = j.console.flush := by
    intro j
    simp only [flush, flushLog, flushConsole]
    split <;> rfl
  rw [hf, Sink.items_flush]
  exact Sink.items_put _ _

theorem logText_put (h : j.Settled) (c : Chunk) (s : String) :
    ((j.display c).record s).flush.logText = j.logText.map (· ++ s) := by
  obtain ⟨colored, verbose, console, _ | ⟨location, sink⟩, disk⟩ := j
  · rfl
  · have hp : sink.pending = [] := h.log _ rfl
    simp [display, record, flush, flushConsole, flushLog, logText, Sink.put, Sink.flush, hp]

/-- Chunks that are displayed one after the other. -/
theorem foldl_display (cs : List Chunk) : ∀ j : Journal, cs.foldl display j =
    { j with console := { j.console with
        pending := j.console.pending ++ cs, accepted := j.console.accepted ++ cs } } := by
  induction cs with
  | nil => simp
  | cons c cs ih =>
    intro j
    rw [List.foldl_cons, ih]
    simp [display, Sink.put]

/-! ## One entry -/

theorem settled_enter (h : j.Settled) : ∀ e : Entry, (j.enter e).Settled
  | .name _ | .outcome _ | .blank => settled_flush _
  | .note s => by
    simp only [enter, note]
    split
    · exact ⟨rfl, h.log⟩
    · exact h
  | .aside cs => by
    rw [enter, foldl_display]
    exact ⟨rfl, h.log⟩
  | .other o => h.see o

theorem alike_enter (j : Journal) : ∀ e : Entry, j.Alike (j.enter e)
  | .name _ | .outcome _ | .blank => alike_put _ _ _
  | .note s => by
    simp only [enter, note]
    split <;> exact ⟨rfl, rfl, rfl⟩
  | .aside cs => by
    rw [enter, foldl_display]
    exact ⟨rfl, rfl, rfl⟩
  | .other o => alike_see j o

theorem items_enter (h : j.Settled) : ∀ e : Entry,
    (j.enter e).console.items = j.console.items ++ e.chunks j.verbose
  | .name _ | .outcome _ | .blank => items_put _ _ _
  | .note s => by
    simp only [enter, note, Entry.chunks]
    split
    · exact (Sink.items_flush _).trans (Sink.items_put _ _)
    · exact (List.append_nil _).symm
  | .aside cs => by
    rw [enter, foldl_display]
    refine (Sink.items_flush _).trans ?_
    simp [Sink.items, Entry.chunks]
  | .other o => items_see h o

theorem logText_enter (h : j.Settled) : ∀ {e : Entry}, e.Fits j →
    (j.enter e).logText = j.logText.map (· ++ e.logged)
  | .name _, _ | .outcome _, _ | .blank, _ => logText_put h _ _
  | .note s, _ => by
    have hsame : (j.enter (.note s)).logText = j.logText := by
      simp only [enter, note]
      split <;> rfl
    simp [hsame, Entry.logged]
  | .aside cs, _ => by
    have hsame : (j.enter (.aside cs)).logText = j.logText := by
      rw [enter, foldl_display]
      rfl
    simp [hsame, Entry.logged]
  | .other o, hf => logText_see hf

/-- Where the log is does not change, so what fits stays so. -/
theorem Entry.Fits.alike (ha : j.Alike j') : ∀ {e : Entry}, e.Fits j → e.Fits j'
  | .other (.appended l texts), h => fun f hf => by
    have hl : j.log.map (·.location) = some f.location := by
      rw [← ha.log, Option.mem_def.mp hf, Option.map_some]
    obtain ⟨g, hg, hsame⟩ := Option.map_eq_some_iff.mp hl
    exact hsame ▸ h g hg
  | .other (.took _), _ | .other (.tookLog _), _ | .other (.showed _), _ => trivial
  | .name _, _ | .outcome _, _ | .blank, _ | .note _, _ | .aside _, _ => trivial

/-- What goes to the console alone leaves the log as it is. -/
theorem log_aside (j : Journal) (cs : List Chunk) : (j.enter (.aside cs)).log = j.log := by
  rw [enter, foldl_display]
  rfl

theorem disk_aside (j : Journal) (cs : List Chunk) : (j.enter (.aside cs)).disk = j.disk := by
  rw [enter, foldl_display]
  rfl

/-- Diagnostic lines that are written one after the other. -/
theorem errors_eq_aside : ∀ (texts : List String) {j : Journal}, j.Settled →
    texts.foldl error j = j.enter (.aside (texts.map .line))
  | [], j, h => h.flushConsole.symm
  | s :: texts, j, h => by
    have hp := h.console
    have hone : j.error s = j.enter (.aside [.line s]) := rfl
    rw [List.foldl_cons, hone, errors_eq_aside texts (settled_enter h _)]
    simp [enter, foldl_display, flushConsole, display, Sink.put, Sink.flush, hp]

/-- A journal without notes is left as it is by a note. -/
theorem enter_note (h : j.verbose = false) (s : String) : j.enter (.note s) = j := by
  simp [enter, note, h]

/-! ## All entries -/

theorem settled_enterAll : ∀ {j : Journal}, j.Settled → ∀ es : List Entry, (j.enterAll es).Settled
  | _, h, [] => h
  | _, h, e :: es => settled_enterAll (settled_enter h e) es

theorem alike_enterAll : ∀ (j : Journal) (es : List Entry), j.Alike (j.enterAll es)
  | j, [] => .refl j
  | j, e :: es => (alike_enter j e).trans (alike_enterAll _ es)

/-- **The console behind a list of entries.** -/
theorem items_enterAll : ∀ {j : Journal}, j.Settled → ∀ es : List Entry,
    (j.enterAll es).console.items = j.console.items ++ es.flatMap (Entry.chunks j.verbose)
  | _, _, [] => (List.append_nil _).symm
  | j, h, e :: es => by
    rw [enterAll_cons, items_enterAll (settled_enter h e), items_enter h, (alike_enter j e).verbose,
      List.flatMap_cons, List.append_assoc]

/-- **The log behind a list of entries.** -/
theorem logText_enterAll : ∀ {j : Journal}, j.Settled → ∀ {es : List Entry}, (∀ e ∈ es, e.Fits j) →
    (j.enterAll es).logText = j.logText.map (· ++ String.join (es.map Entry.logged))
  | j, _, [], _ => by simp
  | j, h, e :: es, hf => by
    have hrest : ∀ e' ∈ es, e'.Fits (j.enter e) := fun e' he' =>
      (hf e' (List.mem_cons_of_mem _ he')).alike (alike_enter j e)
    rw [enterAll_cons, logText_enterAll (settled_enter h e) hrest,
      logText_enter h (hf e List.mem_cons_self), Option.map_map]
    simp [Function.comp_def, String.append_assoc]

end Journal

end TestRig
