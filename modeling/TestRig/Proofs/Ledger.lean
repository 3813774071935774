import Mathlib.Data.List.Perm.Basic
import TestRig.Proofs.Forking

/-!
# TestRig.Proofs.Ledger — what becomes of all that is written

This process and its copies write to the same console and the same log.  What one of them has written is
pending in it until it flushes, and is lost if it is killed before.  So of all that a sink has accepted,
each piece has been passed on once, or is pending in one process, or was lost in one.

* `Sink.Owes`: a sink has passed on all that it has accepted, but for some pieces.
* `Journal.Moves`: a process has written and flushed; `Journal.moves_enter` and `Journal.moves_next` are
  its two cases, this process and a copy.
* `Ledger`: where all pieces are; each thing that can happen to a process has its rule.
* `Host.Balanced`: the ledger of a host; `Host.Balanced.superviseFork` is a test in a copy.
-/

namespace TestRig

/-! ## Sinks -/

namespace Sink

variable {α : Type} {s : Sink α} {p p' xs ys rest held held' : List α}

/-- A sink has passed on all that it has accepted, but for these. -/
def Owes (s : Sink α) (held : List α) : Prop := s.accepted.Perm (s.flushed ++ held)

/-- A sink that has accepted some more, and has passed on some more. -/
def moved (s : Sink α) (xs ys : List α) : Sink α :=
  { s with accepted := s.accepted ++ xs, flushed := s.flushed ++ ys }

@[simp] theorem moved_nil (s : Sink α) : s.moved [] [] = s := by simp [moved]

theorem moved_moved (s : Sink α) (xs ys xs' ys' : List α) :
    (s.moved xs ys).moved xs' ys' = s.moved (xs ++ xs') (ys ++ ys') := by simp [moved]

theorem Owes.perm (h : s.Owes held) (hp : held.Perm held') : s.Owes held' :=
  List.Perm.trans h (hp.append_left _)

/-- A process in which `p` was pending has accepted `xs` and has passed on `ys`. -/
theorem Owes.moved (h : s.Owes (p ++ rest)) (he : p ++ xs = ys ++ p') :
    (s.moved xs ys).Owes (p' ++ rest) := by
  have hout : (p ++ rest ++ xs).Perm (ys ++ (p' ++ rest)) := by
    rw [List.append_assoc, ← List.append_assoc ys, ← he, List.append_assoc]
    exact List.perm_append_comm.append_left p
  show (s.accepted ++ xs).Perm (s.flushed ++ ys ++ (p' ++ rest))
  refine (List.Perm.append_right xs h).trans ?_
  rw [List.append_assoc, List.append_assoc s.flushed]
  exact hout.append_left _

/-- What has been passed on so far is a part of what has been accepted, in its order. -/
def InOrder (s : Sink α) : Prop := s.flushed.Sublist s.accepted

theorem InOrder.moved (h : s.InOrder) (he : xs = ys ++ p') : (s.moved xs ys).InOrder := by
  have hys : ys.Sublist xs := he ▸ List.sublist_append_left ys p'
  exact List.Sublist.append h hys

end Sink

/-! ## Writing -/

namespace Journal

variable {j j' j'' : Journal} {p p' p'' : List Chunk} {q q' q'' : List String} {loc : Option Location}

/-- A process has written to the sinks of a journal and flushed, in which `p` and `q` were pending, and
now `p'` and `q'` are. -/
structure Moves (j j' : Journal) (p p' : List Chunk) (q q' : List String) : Prop where
  settled : j'.Settled
  console : ∃ xs ys, j'.console = j.console.moved xs ys ∧ p ++ xs = ys ++ p'
  closed : j.log = none → j'.log = none
  log : ∀ l ∈ j.log, ∃ xs ys, j'.log = some { l with sink := l.sink.moved xs ys } ∧
    q ++ xs = ys ++ q' ∧
    j'.disk.textAt l.location = (j.disk.textAt l.location).map (· ++ String.join ys)

theorem Moves.refl (h : j.Settled) (p : List Chunk) (q : List String) : j.Moves j p p q q :=
  ⟨h, ⟨[], [], by simp, by simp⟩, id, fun l hl => ⟨[], [], by simpa using hl, by simp, by simp⟩⟩

theorem Moves.trans (h : j.Moves j' p p' q q') (h' : j'.Moves j'' p' p'' q' q'') :
    j.Moves j'' p p'' q q'' := by
  refine ⟨h'.settled, ?_, fun hn => h'.closed (h.closed hn), fun l hl => ?_⟩
  · obtain ⟨xs, ys, hc, he⟩ := h.console
    obtain ⟨xs', ys', hc', he'⟩ := h'.console
    refine ⟨xs ++ xs', ys ++ ys', by rw [hc', hc, Sink.moved_moved], ?_⟩
    rw [← List.append_assoc, he, List.append_assoc, he', List.append_assoc]
  · obtain ⟨xs, ys, hc, he, ht⟩ := h.log l hl
    obtain ⟨xs', ys', hc', he', ht'⟩ := h'.log _ hc
    refine ⟨xs ++ xs', ys ++ ys', by rw [hc', Sink.moved_moved], ?_, ?_⟩
    · rw [← List.append_assoc, he, List.append_assoc, he', List.append_assoc]
    · have htext : j''.disk.textAt l.location =
          (j'.disk.textAt l.location).map (· ++ String.join ys') := ht'
      rw [htext, ht, Option.map_map, String.join_append]
      simp [Function.comp_def, String.append_assoc]

/-- The log of a journal behind a move is the one before it. -/
theorem Moves.exists_log (hm : j.Moves j' p p' q q') {l' : LogFile} (hl' : l' ∈ j'.log) :
    ∃ l ∈ j.log, l'.location = l.location ∧ ∃ xs ys, l'.sink = l.sink.moved xs ys ∧ q ++ xs = ys ++ q' ∧
      j'.disk.textAt l.location = (j.disk.textAt l.location).map (· ++ String.join ys) := by
  cases hl : j.log with
  | none =>
    rw [hm.closed hl] at hl'
    cases hl'
  | some l =>
    obtain ⟨xs, ys, hlog, he, ht⟩ := hm.log l hl
    obtain rfl := Option.some.inj (hlog.symm.trans hl')
    exact ⟨l, rfl, rfl, xs, ys, rfl, he, ht⟩

/-- The log stays where it is. -/
theorem Moves.location (hm : j.Moves j' p p' q q') (h : ∀ l ∈ j.log, loc = some l.location) :
    ∀ l ∈ j'.log, loc = some l.location := by
  intro l' hl'
  obtain ⟨l, hl, hsame, -⟩ := hm.exists_log hl'
  exact hsame ▸ h l hl

/-- Its file goes on holding what was passed on. -/
theorem Moves.file {former : Option String} (hm : j.Moves j' p p' q q')
    (h : ∀ l ∈ j.log, j.disk.textAt l.location = former.map (· ++ String.join l.sink.flushed)) :
    ∀ l ∈ j'.log, j'.disk.textAt l.location = former.map (· ++ String.join l.sink.flushed) := by
  intro l' hl'
  obtain ⟨l, hl, hsame, xs, ys, hsink, -, ht⟩ := hm.exists_log hl'
  rw [hsame, ht, h l hl, hsink, Option.map_map]
  simp [Sink.moved, Function.comp_def, String.append_assoc]

/-- An entry of this process. -/
def Entry.IsOwn : Entry → Prop
  | other _ => False
  | _ => True

/-- **This process writes an entry**, and nothing of it stays pending. -/
theorem moves_enter (h : j.Settled) {e : Entry} (he : e.IsOwn) :
    j.Moves (j.enter e) [] [] [] [] := by
  have hp : j.console.pending = [] := h.console
  have hput : ∀ (c : Chunk) (s : String), j.Moves ((j.display c).record s).flush [] [] [] [] := by
    intro c s
    refine ⟨settled_flush _, ⟨[c], [c], ?_, rfl⟩, fun hn => ?_, fun l hl => ⟨[s], [s], ?_, rfl, ?_⟩⟩
    · cases hl : j.log <;>
        simp [display, record, flush, flushConsole, flushLog, Sink.put, Sink.flush, Sink.moved, hp, hl]
    · simp [display, record, flush, flushConsole, flushLog, hn]
    · have hpl := h.log l hl
      simp [display, record, flush, flushConsole, flushLog, Option.mem_def.mp hl, Sink.put,
        Sink.flush, Sink.moved, hpl]
    · have hpl := h.log l hl
      simp [display, record, flush, flushConsole, flushLog, Option.mem_def.mp hl, Sink.put, hpl]
  have haside : ∀ cs, j.Moves (j.enter (.aside cs)) [] [] [] [] := by
    intro cs
    refine ⟨settled_enter h _, ⟨cs, cs, ?_, by simp⟩, fun hn => ?_, fun l hl => ⟨[], [], ?_, rfl, ?_⟩⟩
    · rw [enter, foldl_display]
      simp [flushConsole, Sink.flush, Sink.moved, hp]
    · rw [log_aside, hn]
    · rw [log_aside, Sink.moved_nil]
      exact hl
    · rw [disk_aside]
      simp
  cases e with
  | name test => exact hput _ _
  | outcome text => exact hput _ _
  | blank => exact hput _ _
  | aside cs => exact haside cs
  | other o => exact he.elim
  | note s =>
    cases hv : j.verbose with
    | false =>
      rw [enter_note hv]
      exact .refl h [] []
    | true =>
      have hsame : j.enter (.note s) = j.enter (.aside [.note s]) := by
        simp [enter, note, hv]
      rw [hsame]
      exact haside _

/-! ### What a copy does to the sinks -/

theorem moves_take (h : j.Settled) (k : Chunk) (p : List Chunk) (q : List String) :
    j.Moves (j.take k) p (p ++ [k]) q q :=
  ⟨h.see (.took k), ⟨[k], [], by simp [take, Sink.moved], rfl⟩, id,
    fun l hl => ⟨[], [], by simpa [take] using hl, by simp, by simp [take]⟩⟩

theorem moves_takeLog (h : j.Settled) (s : String) (p : List Chunk) (q : List String) :
    j.Moves (j.takeLog s) p p q (q ++ [s]) := by
  refine ⟨h.see (.tookLog s), ⟨[], [], by simp [takeLog], by simp⟩, fun hn => by simp [takeLog, hn],
    fun l hl => ⟨[s], [], ?_, rfl, by simp [takeLog]⟩⟩
  simp [takeLog, Option.mem_def.mp hl, Sink.moved]

theorem moves_show (h : j.Settled) (p : List Chunk) (q : List String) :
    j.Moves (j.show p) p [] q q :=
  ⟨h.see (.showed p), ⟨[], p, by simp [«show», Sink.moved], by simp⟩, id,
    fun l hl => ⟨[], [], by simpa [«show»] using hl, by simp, by simp [«show»]⟩⟩

theorem moves_append (h : j.Settled) {location : Location} (hl : ∀ l ∈ j.log, l.location = location)
    (p : List Chunk) (q : List String) : j.Moves (j.append location q) p p q [] := by
  refine ⟨h.see (.appended location q), ⟨[], [], by simp [append], by simp⟩,
    fun hn => by simp [append, hn], fun l hmem => ⟨[], q, ?_, rfl, ?_⟩⟩
  · simp [append, Option.mem_def.mp hmem, Sink.moved]
  · rw [append, hl l hmem]
    exact Disk.textAt_append _ _ _

/-- **A copy does the next part of its work.** -/
theorem moves_next {c : Supervision.Child} (h : j.Settled) (hc : c.Plain loc)
    (hl : ∀ l ∈ j.log, loc = some l.location) :
    j.Moves (j.enterAll (c.does.map .other)) c.console c.next.console c.pendingLog
      c.next.pendingLog := by
  obtain ⟨pid, console, log, work, status, ended⟩ := c
  match work with
  | [] => exact .refl h _ _
  | .display k :: _ => exact moves_take h k _ _
  | .flushConsole :: _ => exact moves_show h _ _
  | .record s :: _ => match log with
    | none => exact .refl h _ _
    | some l => exact moves_takeLog h s _ _
  | .flushLog :: _ => match log with
    | none => exact .refl h _ _
    | some l =>
      have hsame : ∀ l' ∈ j.log, l'.location = l.location := fun l' hl' =>
        Option.some.inj ((hl l' hl').symm.trans (hc.log l rfl).1)
      exact moves_append h hsame _ _

end Journal

/-! ## The ledger -/

namespace Supervision

open Journal (Entry Other)

/-- What is lost by an event. -/
def Event.lostChunks : Event → List Chunk
  | .killed _ console _ => console
  | _ => []

def Event.lostTexts : Event → List String
  | .killed _ _ log => log
  | _ => []

/-- Nothing is pending when a copy of this process is made, or when it ends by itself; in one that is
killed at most outcomes are. -/
def Event.Tidy : Event → Prop
  | .forked _ console log | .ended _ console log => console = [] ∧ log = []
  | .killed _ console log => (∀ k ∈ console, k.IsOutcome) ∧ ∀ t ∈ log, IsOutcome t
  | _ => True

theorem Child.Plain.outcomes {loc : Option Location} {c : Child} (h : c.Plain loc) :
    (∀ k ∈ c.console, k.IsOutcome) ∧ ∀ t ∈ c.pendingLog, IsOutcome t := by
  refine ⟨h.pending, ?_⟩
  unfold Child.pendingLog
  cases hl : c.log with
  | none => exact fun t ht => nomatch ht
  | some l => exact (h.log l hl).2

/-- **Where everything is that was written**: each sink has passed it on, or it is pending in one of some
copies, or it was lost by an event.  The file of the log holds its former text and what was passed on. -/
structure Ledger (loc : Option Location) (former : Option String) (cs : List Child) (j : Journal)
    (es : List Event) : Prop where
  settled : j.Settled
  location : ∀ l ∈ j.log, loc = some l.location
  plain : ∀ c ∈ cs, c.Plain loc
  finished : ∀ c ∈ cs, c.ended = true → c.work = []
  console : j.console.Owes (cs.flatMap (·.console) ++ es.flatMap Event.lostChunks)
  log : ∀ l ∈ j.log, l.sink.Owes (cs.flatMap Child.pendingLog ++ es.flatMap Event.lostTexts)
  file : ∀ l ∈ j.log, j.disk.textAt l.location = former.map (· ++ String.join l.sink.flushed)
  tidy : ∀ e ∈ es, e.Tidy

namespace Ledger

variable {loc : Option Location} {former : Option String} {c c' : Child} {cs cs' : List Child}
  {j j' : Journal} {es : List Event} {e : Event}

theorem perm (h : Ledger loc former cs j es) (hp : cs.Perm cs') : Ledger loc former cs' j es :=
  { h with
    plain := fun c hc => h.plain c (hp.mem_iff.mpr hc)
    finished := fun c hc => h.finished c (hp.mem_iff.mpr hc)
    console := h.console.perm ((hp.flatMap_right _).append_right _)
    log := fun l hl => (h.log l hl).perm ((hp.flatMap_right _).append_right _) }

/-- One of the copies has written and flushed. -/
theorem moves (h : Ledger loc former (c :: cs) j es)
    (hm : j.Moves j' c.console c'.console c.pendingLog c'.pendingLog) (hc' : c'.Plain loc)
    (ho : c'.ended = true → c'.work = []) : Ledger loc former (c' :: cs) j' es := by
  refine ⟨hm.settled, hm.location h.location, ?_, ?_, ?_, fun l' hl' => ?_, hm.file h.file, h.tidy⟩
  · exact List.forall_mem_cons.mpr ⟨hc', fun c hc => h.plain c (List.mem_cons_of_mem _ hc)⟩
  · exact List.forall_mem_cons.mpr ⟨ho, fun c hc => h.finished c (List.mem_cons_of_mem _ hc)⟩
  · obtain ⟨xs, ys, hc, he⟩ := hm.console
    have howes := h.console
    rw [List.flatMap_cons, List.append_assoc] at howes ⊢
    exact hc ▸ howes.moved he
  · obtain ⟨l, hl, -, xs, ys, hsink, he, -⟩ := hm.exists_log hl'
    have howes := h.log l hl
    rw [List.flatMap_cons, List.append_assoc] at howes ⊢
    exact hsink ▸ howes.moved he

/-- This process has written and flushed. -/
theorem own (h : Ledger loc former cs j es) (hm : j.Moves j' [] [] [] []) :
    Ledger loc former cs j' es := by
  refine ⟨hm.settled, hm.location h.location, h.plain, h.finished, ?_, fun l' hl' => ?_, hm.file h.file,
    h.tidy⟩
  · obtain ⟨xs, ys, hc, he⟩ := hm.console
    have howes : j.console.Owes ([] ++ _) := h.console
    exact hc ▸ howes.moved he
  · obtain ⟨l, hl, -, xs, ys, hsink, he, -⟩ := hm.exists_log hl'
    have howes : l.sink.Owes ([] ++ _) := h.log l hl
    exact hsink ▸ howes.moved he

theorem enter (h : Ledger loc former cs j es) {e : Entry} (he : e.IsOwn) :
    Ledger loc former cs (j.enter e) es := h.own (Journal.moves_enter h.settled he)

/-- There is a new copy in which nothing is pending. -/
theorem hold (h : Ledger loc former cs j es) (hc : c.Plain loc) (ho : c.ended = false)
    (hconsole : c.console = []) (hlog : c.pendingLog = []) : Ledger loc former (c :: cs) j es :=
  { h with
    plain := List.forall_mem_cons.mpr ⟨hc, h.plain⟩
    finished := List.forall_mem_cons.mpr ⟨fun hno => (nomatch hno.symm.trans ho), h.finished⟩
    console := by
      rw [List.flatMap_cons, hconsole]
      exact h.console
    log := by
      rw [List.flatMap_cons, hlog]
      exact h.log }

/-- A copy is gone that has done its work. -/
theorem drop (h : Ledger loc former (c :: cs) j es) (hw : c.work = []) :
    Ledger loc former cs j es := by
  obtain ⟨hconsole, hlog⟩ := (h.plain c List.mem_cons_self).drained hw
  have howes := h.console
  have howesLog := h.log
  rw [List.flatMap_cons, hconsole] at howes
  rw [List.flatMap_cons, hlog] at howesLog
  exact { h with
    plain := fun c hc => h.plain c (List.mem_cons_of_mem _ hc)
    finished := fun c hc => h.finished c (List.mem_cons_of_mem _ hc)
    console := howes
    log := howesLog }

/-- A copy is killed, and what is pending in it is lost. -/
theorem killed (h : Ledger loc former (c :: cs) j es) :
    Ledger loc former cs j (es ++ [.killed c.pid c.console c.pendingLog]) := by
  have hmove : ∀ {α : Type} (p xs ys : List α), (p ++ xs ++ ys).Perm (xs ++ (ys ++ p)) := by
    intro α p xs ys
    rw [List.append_assoc, ← List.append_assoc xs]
    exact List.perm_append_comm
  refine { h with
    plain := fun c hc => h.plain c (List.mem_cons_of_mem _ hc)
    finished := fun c hc => h.finished c (List.mem_cons_of_mem _ hc)
    console := ?_
    log := fun l hl => ?_
    tidy := ?_ }
  · rw [List.flatMap_append, List.flatMap_singleton]
    exact h.console.perm (hmove _ _ _)
  · rw [List.flatMap_append, List.flatMap_singleton]
    exact (h.log l hl).perm (hmove _ _ _)
  · intro e he
    rcases List.mem_append.mp he with he | he
    · exact h.tidy e he
    · obtain rfl := List.mem_singleton.mp he
      exact (h.plain c List.mem_cons_self).outcomes

/-- Something happens by which nothing is lost. -/
theorem happens (h : Ledger loc former cs j es) (ht : e.Tidy) (hconsole : e.lostChunks = [])
    (hlog : e.lostTexts = []) : Ledger loc former cs j (es ++ [e]) :=
  { h with
    console := by simpa [hconsole] using h.console
    log := by simpa [hlog] using h.log
    tidy := fun e' he' => by
      rcases List.mem_append.mp he' with he' | he'
      · exact h.tidy e' he'
      · exact List.mem_singleton.mp he' ▸ ht }

/-- The log is closed. -/
theorem close (h : Ledger loc former cs j es) : Ledger loc former cs { j with log := none } es :=
  { h with
    settled := ⟨h.settled.console, fun _ hl => nomatch hl⟩
    location := fun _ hl => nomatch hl
    log := fun _ hl => nomatch hl
    file := fun _ hl => nomatch hl }

end Ledger

/-! ## The ledger of a host -/

/-- A copy of this process that was left behind. -/
def Stray.child? : Stray → Option Child
  | copy c => some c
  | program _ => none

namespace Host

/-- The copies that were left behind. -/
def children (h : Host) : List Child := h.strays.filterMap Stray.child?

/-- The ledger of a host on which, behind some first events, these copies are held beside those that were
left behind. -/
structure Balanced (loc : Option Location) (former : Option String) (first : List Event)
    (held : List Child) (h : Host) : Prop where
  ledger : Ledger loc former (held ++ h.children) h.journal h.events
  copies : ∀ s ∈ h.strays, ∃ c, s = .copy c
  first : first <+: h.events

variable {loc : Option Location} {former : Option String} {first : List Event} {held : List Child}
  {c : Child} {h h' : Host}

namespace Balanced

theorem of_same (hb : Balanced loc former first held h) (hj : h'.journal = h.journal)
    (he : h'.events = h.events) (hs : h'.strays = h.strays) : Balanced loc former first held h' := by
  have hchildren : h'.children = h.children := by rw [children, hs, children]
  exact ⟨by rw [hj, he, hchildren]; exact hb.ledger, hs ▸ hb.copies, he ▸ hb.first⟩

theorem earlier {first' : List Event} (hb : Balanced loc former first' held h) (hp : first <+: first') :
    Balanced loc former first held h := ⟨hb.ledger, hb.copies, hp.trans hb.first⟩

theorem happens {e : Event} (hb : Balanced loc former first held h) (ht : e.Tidy)
    (hconsole : e.lostChunks = []) (hlog : e.lostTexts = []) :
    Balanced loc former first held (h.log e) :=
  ⟨hb.ledger.happens ht hconsole hlog, hb.copies, hb.first.trans (List.prefix_append _ _)⟩

theorem onJournal {f : Journal → Journal} (hb : Balanced loc former first held h)
    (hf : ∀ cs es, Ledger loc former cs h.journal es → Ledger loc former cs (f h.journal) es) :
    Balanced loc former first held (h.onJournal f) :=
  ⟨hf _ _ hb.ledger, hb.copies, hb.first⟩

theorem enter {e : Entry} (hb : Balanced loc former first held h) (he : e.IsOwn) :
    Balanced loc former first held (h.onJournal (·.enter e)) :=
  hb.onJournal fun _ _ hl => hl.enter he

theorem drop (hb : Balanced loc former first [c] h) (hw : c.work = []) :
    Balanced loc former first [] h := ⟨hb.ledger.drop hw, hb.copies, hb.first⟩

/-- A copy is held that was left behind. -/
theorem leave (hb : Balanced loc former first [c] h) : Balanced loc former first [] (h.leave c) := by
  unfold Host.leave
  split
  · rename_i ho
    exact hb.drop (hb.ledger.finished c List.mem_cons_self ho)
  · refine ⟨?_, fun s hs => ?_, hb.first⟩
    · have hchildren : (h.desert (.copy c)).children = h.children ++ [c] := by
        simp [children, desert, Stray.child?]
      rw [hchildren]
      have hlast : ([c] ++ h.children).Perm (h.children ++ [c]) := List.perm_append_comm
      exact hb.ledger.perm hlast
    · rcases List.mem_append.mp hs with hs | hs
      · exact hb.copies s hs
      · exact ⟨c, List.mem_singleton.mp hs⟩

end Balanced

/-! ### Copies at work -/

/-- **A copy takes a step.** -/
theorem ledger_step {cs : List Child} (hl : Ledger loc former (c :: cs) h.journal h.events) :
    Ledger loc former ((step c h).1 :: cs) (step c h).2.journal (step c h).2.events := by
  have hc : c.Plain loc := hl.plain c List.mem_cons_self
  cases hw : c.work with
  | cons a work =>
    have hopen : c.next.ended = true → c.next.work = [] := by
      intro ho
      rw [c.same_next.2.2] at ho
      rw [hl.finished c List.mem_cons_self ho] at hw
      cases hw
    rw [step_of_work hw]
    exact hl.moves (Journal.moves_next hl.settled hc hl.location) hc.next hopen
  | nil =>
    obtain ⟨hconsole, hlog⟩ := hc.drained hw
    rw [step_of_done hw]
    unfold Host.close
    split
    · have hended : Ledger loc former ({ c with ended := true } :: cs) h.journal h.events :=
        hl.moves (.refl hl.settled _ _) hc.ended fun _ => hw
      exact hended.happens ⟨hconsole, hlog⟩ rfl rfl
    · exact hl

theorem strays_step (c : Child) (h : Host) : (step c h).2.strays = h.strays := by
  cases hw : c.work with
  | cons a work =>
    rw [step_of_work hw]
    rfl
  | nil =>
    rw [step_of_done hw]
    unfold Host.close
    split <;> rfl

theorem events_step (c : Child) (h : Host) : h.events <+: (step c h).2.events := by
  cases hw : c.work with
  | cons a work =>
    rw [step_of_work hw]
    exact List.prefix_refl _
  | nil =>
    rw [step_of_done hw]
    unfold Host.close
    split
    · exact List.prefix_append _ _
    · exact List.prefix_refl _

namespace Balanced

theorem step (hb : Balanced loc former first [c] h) :
    Balanced loc former first [(Host.step c h).1] (Host.step c h).2 := by
  have hsame := strays_step c h
  have hchildren : (Host.step c h).2.children = h.children := by rw [children, hsame, children]
  exact ⟨hchildren ▸ ledger_step hb.ledger, hsame ▸ hb.copies, hb.first.trans (events_step c h)⟩

theorem advance : ∀ (n : Nat) {c : Child} {h : Host}, Balanced loc former first [c] h →
    Balanced loc former first [(Host.advance n c h).1] (Host.advance n c h).2
  | 0, _, _, hb => hb
  | n + 1, _, _, hb => advance n hb.step

theorem runUntil (hb : Balanced loc former first [c] h) (k : Course) (t : Nat) :
    Balanced loc former first [(Host.runUntil k t c h).1] (Host.runUntil k t c h).2 := by
  unfold Host.runUntil
  split
  · exact hb.advance _
  · exact hb.advance _

/-- **A process goes on that was left behind.** -/
theorem wake (hb : Balanced loc former first held h) (i : Nat) :
    Balanced loc former first held (h.wake i) := by
  unfold Host.wake
  cases hi : h.strays[i]? with
  | none => exact hb
  | some s =>
    obtain ⟨hlt, hget⟩ := List.getElem?_eq_some_iff.mp hi
    obtain ⟨c, rfl⟩ := hb.copies s (List.mem_of_getElem? hi)
    have hrest : ∀ s ∈ h.strays.eraseIdx i, ∃ c, s = .copy c := fun s hs =>
      hb.copies s (List.mem_of_mem_eraseIdx hs)
    -- the copy is held while it takes a step
    let others := (h.strays.eraseIdx i).filterMap Stray.child?
    have hout : (held ++ h.children).Perm (c :: (held ++ others)) := by
      have hstrays := List.getElem_cons_eraseIdx_perm hlt
      rw [hget] at hstrays
      have hchildren : (c :: others).Perm h.children := hstrays.filterMap Stray.child?
      exact (hchildren.symm.append_left held).trans List.perm_middle
    have hstep := ledger_step (hb.ledger.perm hout)
    have hsame := strays_step c h
    have hevents := hb.first.trans (events_step c h)
    dsimp only
    rw [hsame]
    split
    · rename_i ho
      exact ⟨hstep.drop (hstep.finished _ List.mem_cons_self ho), hrest, hevents⟩
    · refine ⟨hstep.perm ?_, fun s hs => ?_, hevents⟩
      · have hset := (List.set_perm_cons_eraseIdx hlt
          (Stray.copy (Host.step c h).1)).filterMap Stray.child?
        exact List.perm_middle.symm.trans (hset.symm.append_left held)
      · rcases List.mem_or_eq_of_mem_set hs with hs | rfl
        · exact hb.copies s hs
        · exact ⟨_, rfl⟩

theorem elapse : ∀ (order : List Nat) {h : Host}, Balanced loc former first held h →
    Balanced loc former first held (h.elapse order)
  | [], _, hb => hb
  | i :: order, _, hb => elapse order (hb.wake i)

/-! ### Single calls -/

theorem wait (hb : Balanced loc former first held h) : Balanced loc former first held h.wait.2 :=
  hb.of_same rfl rfl rfl

theorem reap (hb : Balanced loc former first held h) (pid : Nat) :
    Balanced loc former first held (h.reap pid).2 := by
  have hwaited := hb.wait
  unfold Host.reap
  rcases hw : h.wait with ⟨_ | (_ | _) | _, h'⟩ <;> rw [hw] at hwaited
  · exact hwaited.happens (e := .reaped pid) trivial rfl rfl
  · exact hwaited
  · exact hwaited.happens (e := .reaped pid) trivial rfl rfl
  · exact hwaited

theorem reapOnce (hb : Balanced loc former first held h) (pid : Nat) (collected : Bool) :
    Balanced loc former first held (h.reapOnce pid collected).2 := by
  cases collected with
  | true => exact hb.wait
  | false => exact hb.reap pid

theorem kill_failed (hb : Balanced loc former first [c] h) {x : Exception}
    (hk : h.faults.kill.next = some x) :
    ∃ h', h.killChild c = (some x, h') ∧ Balanced loc former first [c] h' := by
  unfold Host.killChild Host.kill
  rw [hk]
  exact ⟨_, rfl, hb.of_same rfl rfl rfl⟩

theorem killed (hb : Balanced loc former first [c] h) (hk : h.faults.kill.next = none) :
    ∃ h', h.killChild c = (none, h') ∧ Balanced loc former first [] h' := by
  unfold Host.killChild Host.kill
  rw [hk]
  exact ⟨_, rfl, hb.ledger.killed, hb.copies, hb.first.trans (List.prefix_append _ _)⟩

theorem pendingLog_of_settled {j : Journal} (hs : j.Settled) : pendingLog j = [] := by
  cases hl : j.log with
  | none => simp [pendingLog, hl]
  | some l => simp [pendingLog, hl, hs.log l hl]

/-- The line of a test is begun. -/
theorem begun (hb : Balanced loc former first held h) (test : Identity) :
    Balanced loc former first held (h.begun test) :=
  (hb.enter (e := .note _) trivial).enter (e := .name test) trivial

/-- A copy is made when nothing is pending. -/
theorem forked (hb : Balanced loc former first held h) (test : Identity) :
    Balanced loc former (h.events ++ [.forked h.nextPid [] []]) held (h.forked test) := by
  have hbegun := hb.begun test
  have hs : (h.begun test).journal.Settled := hbegun.ledger.settled
  unfold Host.forked
  rw [hs.console, pendingLog_of_settled hs]
  exact ⟨hbegun.ledger.happens (e := .forked h.nextPid [] []) ⟨rfl, rfl⟩ rfl rfl, hbegun.copies,
    List.prefix_refl _⟩

end Balanced

end Host

/-! ## A test in a copy -/

open Host (Balanced)

variable {loc : Option Location} {former : Option String} {first : List Event} {c : Child} {h : Host}
  {test : Identity}

namespace Host.Balanced

theorem expire (hb : Balanced loc former first [c] h) :
    Balanced loc former first [] (expire c h).2 := by
  unfold Supervision.expire
  cases hk : h.faults.kill.next with
  | some x =>
    obtain ⟨h', hkill, hb'⟩ := hb.kill_failed hk
    rw [hkill]
    exact hb'.leave
  | none =>
    obtain ⟨h', hkill, hb'⟩ := hb.killed hk
    have hreap := hb'.reap c.pid
    rw [hkill]
    rcases hr : h'.reap c.pid with ⟨_ | _ | _, h''⟩ <;> rw [hr] at hreap <;> simp only [hr]
    · exact hreap.enter (e := .outcome _) trivial
    · exact hreap
    · exact hreap

theorem passUnless (hb : Balanced loc former first [] h) (x : Exception) :
    Balanced loc former first [] (passUnless x h).2 := by
  rw [passUnless_eq]
  exact hb

theorem stopChild (hb : Balanced loc former first [c] h) (collected : Bool) :
    Balanced loc former first [] (stopChild c collected h).2 := by
  unfold Supervision.stopChild
  cases hk : h.faults.kill.next with
  | some x =>
    obtain ⟨h', hkill, hb'⟩ := hb.kill_failed hk
    rw [hkill]
    exact hb'.leave.passUnless x
  | none =>
    obtain ⟨h', hkill, hb'⟩ := hb.killed hk
    have hreap := hb'.reapOnce c.pid collected
    rw [hkill]
    rcases hr : h'.reapOnce c.pid collected with ⟨_ | _ | x, h''⟩ <;> rw [hr] at hreap <;> simp only [hr]
    · exact hreap
    · exact hreap
    · exact hreap.passUnless x

theorem judge (hb : Balanced loc former first [] h) (pid : Nat) (s : Status) :
    Balanced loc former first [] (judge test pid s h).2 := by
  cases s with
  | killed n => exact hb.enter (e := .outcome _) trivial
  | exited code =>
    have hchecked : Balanced loc former first [] (checkExitCode code h).2 := by
      unfold checkExitCode
      split
      · exact hb
      · split
        · exact hb
        · exact hb.enter (e := .outcome _) trivial
    exact hchecked.enter (e := .note _) trivial

/-- A copy that has ended is collected. -/
theorem collect (hb : Balanced loc former first [c] h) (hw : c.work = []) (s : Status) :
    Balanced loc former first [] (collect test c s h).2 := by
  have hreap := hb.reap c.pid
  unfold Supervision.collect
  rcases hr : h.reap c.pid with ⟨_ | collected | x, h'⟩ <;> rw [hr] at hreap
  · exact (hreap.drop hw).judge c.pid s
  · exact hreap.stopChild collected
  · exact hreap.drop hw

/-- **What follows on a wait**, where a copy that has ended is found to have done its work. -/
theorem conclude (hb : Balanced loc former first [c] h) {k : Course} {w : Sighting}
    (hw : ∀ s, w.found = .ok (some s) → k.ended? c.status w.time = some s)
    {next : Child → Status → Host → Except Halt Bool × Host}
    (hnext : ∀ c' s h', c'.work = [] → Balanced loc former first [c'] h' →
      Balanced loc former first [] (next c' s h').2) :
    Balanced loc former first [] (conclude c k w h next).2 := by
  have hcalled : Balanced loc former first [c] { h with faults := w.faults } := hb.of_same rfl rfl rfl
  have hrun := hcalled.runUntil k w.time
  unfold Supervision.conclude
  rcases hr : Host.runUntil k w.time c { h with faults := w.faults } with ⟨c', h'⟩
  rw [hr] at hrun
  rcases hfound : w.found with (x | collected) | _ | s <;> dsimp only
  · exact hrun.leave
  · cases collected with
    | false => exact hrun.stopChild false
    | true => exact (hrun.happens (e := .reaped c'.pid) trivial rfl rfl).stopChild true
  · exact hrun.expire
  · refine hnext c' s h' ?_ hrun
    have hends : (k.ended? c.status w.time).isSome = true := by rw [hw s hfound]; rfl
    have hdone : (Host.finish c { h with faults := w.faults }).1 = c' := by
      rw [Host.runUntil, if_pos hends] at hr
      rw [hr]
    rw [← hdone, Host.finish_eq]
    unfold Host.close
    split <;> exact (Child.work_after _ _).trans List.drop_length

theorem await (hb : Balanced loc former first [c] h) (cfg : Configuration) (k : Course) :
    Balanced loc former first [] (await cfg test c k h).2 := by
  unfold Supervision.await
  cases cfg.seconds with
  | error x => exact (hb.advance (min k.done c.work.length)).leave
  | ok x =>
    rw [Host.openDescriptor_eq]
    have hopened : Balanced loc former first [c] { h with faults := Fate.pastOpen h.faults } :=
      hb.of_same rfl rfl rfl
    cases Fate.opens h.faults with
    | true =>
      exact hopened.conclude (fun s => ended_of_watch) fun c' s h' hdone hb' => hb'.collect hdone s
    | false =>
      refine hopened.conclude (fun s => ended_of_look) fun c' s h' hdone hb' => ?_
      exact ((hb'.drop hdone).happens (e := .reaped c'.pid) trivial rfl rfl).judge c'.pid s

/-- The copy that is made for a test has nothing pending. -/
theorem hold (hb : Balanced loc former first [] h) {j : Journal} (hs : j.Settled)
    (hl : ∀ l ∈ j.log, loc = some l.location) (pid : Nat) (d : Dumper) (test : Identity)
    (e : Ending) : Balanced loc former first [.ofEnding pid d test e j] h := by
  have hchild := Child.ofEnding_of_settled hs pid d test e
  have hplain : (Child.ofEnding pid d test e j).Plain loc := by
    rw [hchild]
    refine (Child.plain_begun pid d test e _).mono fun l hmem => ?_
    obtain ⟨f, hf, rfl⟩ := Option.map_eq_some_iff.mp hmem
    exact hl f hf
  have hnone : (Child.ofEnding pid d test e j).pendingLog = [] := by
    rw [hchild, Child.begun, Child.pendingLog]
    cases j.log <;> rfl
  exact ⟨hb.ledger.hold hplain rfl hs.console hnone, hb.copies, hb.first⟩

/-- **A test in a copy of this process** keeps the ledger, and a copy is made unless that fails. -/
theorem superviseFork (hb : Balanced loc former first [] h) (cfg : Configuration) (d : Dumper)
    (test : Identity) (e : Ending) :
    Balanced loc former first [] (superviseFork cfg d test e h).2 ∧
    (h.faults.fork.next = none → h.events ++ [.forked h.nextPid [] []] <+:
      (superviseFork cfg d test e h).2.events) := by
  cases hfork : h.faults.fork.next with
  | some x =>
    rw [superviseFork_of_failed cfg d test e hfork]
    have hcalled : Balanced loc former first [] { h.begun test with
        faults := { h.faults with fork := h.faults.fork.later } } := (hb.begun test).of_same rfl rfl rfl
    exact ⟨hcalled.enter (e := .blank) trivial, by simp⟩
  | none =>
    rw [superviseFork_of_forked cfg d test e hfork]
    have hforked := hb.forked test
    have hheld := (hforked.elapse (h.faults.courses 0).others).hold hforked.ledger.settled
      hforked.ledger.location h.nextPid d test e
    have hdone : Balanced loc former (h.events ++ [.forked h.nextPid [] []]) []
        (Supervision.await cfg test _ (h.faults.courses 0) _).2 := hheld.await cfg _
    exact ⟨hdone.earlier (hb.first.trans (List.prefix_append _ _)), fun _ => hdone.first⟩

end Host.Balanced

end Supervision

end TestRig
