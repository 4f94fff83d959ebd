import FrameScan.Proofs.Trail
import Mathlib.Algebra.Group.Defs

/-!
# Traces

What a run adds to a session whose output has no limit: counts, lines, probes
and notices. The loop over the pages of a span adds the trace of its trail, and
the scan of a source adds the traces of its events one after another.
-/

namespace FrameScan

attribute [ext] Tally

namespace Tally

instance : Add Tally where
  add first second :=
    { spans := first.spans + second.spans
      pagesRead := first.pagesRead + second.pagesRead
      pagesEmitted := first.pagesEmitted + second.pagesEmitted
      truncated := first.truncated + second.truncated
      aborted := first.aborted + second.aborted }

instance : Zero Tally where
  zero := {}

variable (first second : Tally)

theorem add_def : first + second =
    { spans := first.spans + second.spans
      pagesRead := first.pagesRead + second.pagesRead
      pagesEmitted := first.pagesEmitted + second.pagesEmitted
      truncated := first.truncated + second.truncated
      aborted := first.aborted + second.aborted } := rfl

@[simp] theorem spans_add : (first + second).spans = first.spans + second.spans := rfl

@[simp] theorem pagesRead_add :
    (first + second).pagesRead = first.pagesRead + second.pagesRead := rfl

@[simp] theorem pagesEmitted_add :
    (first + second).pagesEmitted = first.pagesEmitted + second.pagesEmitted := rfl

@[simp] theorem truncated_add :
    (first + second).truncated = first.truncated + second.truncated := rfl

@[simp] theorem aborted_add : (first + second).aborted = first.aborted + second.aborted := rfl

theorem zero_def : (0 : Tally) = {} := rfl

instance : AddCommMonoid Tally where
  add_assoc first second third := by ext <;> simp [Nat.add_assoc]
  zero_add tally := by ext <;> simp [zero_def]
  add_zero tally := by ext <;> simp [zero_def]
  add_comm first second := by ext <;> simp [Nat.add_comm]
  nsmul := nsmulRec

theorem count_eq_add (tally : Tally) (outcome : Outcome) :
    tally.count outcome = tally + ({} : Tally).count outcome := by
  cases outcome <;> rfl

end Tally

@[ext] structure Trace where
  tally : Tally := 0
  lines : List Line := []
  probes : List Probe := []
  notices : List Notice := []

namespace Trace

instance : Append Trace where
  append first second :=
    { tally := first.tally + second.tally
      lines := first.lines ++ second.lines
      probes := first.probes ++ second.probes
      notices := first.notices ++ second.notices }

variable (first second : Trace)

@[simp] theorem tally_append : (first ++ second).tally = first.tally + second.tally := rfl

@[simp] theorem lines_append : (first ++ second).lines = first.lines ++ second.lines := rfl

@[simp] theorem probes_append : (first ++ second).probes = first.probes ++ second.probes := rfl

@[simp] theorem notices_append :
    (first ++ second).notices = first.notices ++ second.notices := rfl

end Trace

namespace Session

variable (session : Session)

/-- The session after a run that added a trace to it. -/
def extend (trace : Trace) : Session :=
  { tally := session.tally + trace.tally
    sink := session.sink.push trace.lines
    probes := session.probes ++ trace.probes.toArray
    notices := session.notices ++ trace.notices.toArray }

@[simp] theorem extend_extend (first second : Trace) :
    (session.extend first).extend second = session.extend (first ++ second) := by
  simp [extend, add_assoc]

@[simp] theorem extend_empty : session.extend {} = session := by
  simp [extend]

@[simp] theorem size_probes_extend (trace : Trace) :
    (session.extend trace).probes.size = session.probes.size + trace.probes.length := by
  simp [extend]

theorem emit_of_unlimited {session : Session} (h : session.sink.room = none) (line : Line) :
    emit line session = .ok () (session.extend { lines := [line] }) := by
  have hwrite := Sink.write_of_unlimited h line
  rw [emit_of_taken session (by rw [hwrite])]
  simp [extend, hwrite]

theorem note_eq_extend (notice : Notice) :
    note notice session = .ok () (session.extend { notices := [notice] }) := by
  simp [note_apply, extend]

end Session

/-- What the scan along a trail adds. -/
def Trail.trace (size : PageSize) (table : Path) (policy : Policy) (trail : Trail) : Trace where
  tally := { pagesRead := trail.entries.length, pagesEmitted := (trail.lines policy).length }
  lines := trail.lines policy
  probes := trail.visited.map (Session.probeAt size)
  notices := trail.notices table policy

namespace Trail

theorem lines_cons (trail : Trail) (policy : Policy) (address : UInt64) (entry : Entry) :
    (trail.cons address entry).lines policy =
      lines { entries := [(address, entry)] } policy ++ trail.lines policy := by
  rw [lines, lines, lines, ← List.filterMap_append]
  rfl

theorem trace_cons (trail : Trail) (size : PageSize) (table : Path) (policy : Policy)
    (address : UInt64) (entry : Entry) :
    (trail.cons address entry).trace size table policy =
      trace size table policy { entries := [(address, entry)] } ++
        trail.trace size table policy := by
  have hlines := trail.lines_cons policy address entry
  have hlength : (trail.cons address entry).entries.length = 1 + trail.entries.length := by
    simp [cons, Nat.add_comm]
  ext1
  · simp [trace, hlines, hlength, Tally.add_def]
  · exact hlines
  · simp [trace, cons, visited]
  · simp [trace, cons, notices]

end Trail

namespace Scan

variable (size : PageSize) (table : EntryTable) (policy : Policy) {session : Session}

open Session

theorem page_of_entry_unlimited (h : session.sink.room = none) {address : UInt64} {entry : Entry}
    (hfetch : table.fetch session.probes.size (size.index address) = .ok (.entry entry)) :
    page size table policy address session =
      .ok none (session.extend
        (Trail.trace size table.path policy { entries := [(address, entry)] })) := by
  rw [page_of_entry hfetch]
  cases hcontent : policy.content? entry with
  | none =>
    rw [Action.bind_of_ok (report_of_none hcontent)]
    simp [pure, EStateM.pure, asked, extend, Trail.trace, Trail.lines, Trail.notices,
      Trail.visited, hcontent, Tally.add_def]
  | some content =>
    rw [Action.bind_of_ok ((report_of_some hcontent).trans
      (Action.bind_of_ok (emit_of_unlimited (by exact h) _) _))]
    simp [pure, EStateM.pure, asked, noting, extend, Trail.trace, Trail.lines, Trail.notices,
      Trail.visited, hcontent, Tally.add_def]

theorem page_of_halt_unlimited {address : UInt64} {halt : Halt}
    (hfetch : table.fetch session.probes.size (size.index address) = halt.answer) :
    page size table policy address session =
      .ok (some halt.outcome) (session.extend
        (Trail.trace size table.path policy { halt := some (address, halt) })) := by
  rw [page_of_halt hfetch]
  simp [asked, extend, Trail.trace, Trail.lines, Trail.notices, Trail.visited, Tally.add_def]

/-- Without a limit of the output the loop over pages runs to its end, and adds the trace of
the trail of all addresses from its first one on. -/
theorem pages_of_unlimited (h : session.sink.room = none) (stop address : UInt64) :
    let trail := Trail.along size table session.probes.size (size.addresses address stop)
    pages size table policy stop address session =
      .ok trail.outcome (session.extend (trail.trace size table.path policy)) := by
  induction address using pages.induct size stop generalizing session with
  | case1 address inside ih =>
    rw [pages_of_lt _ _ _ inside, size.addresses_of_lt inside]
    obtain ⟨entry, hfetch⟩ | ⟨halt, hfetch⟩ :=
      entry_or_halt (table.fetch session.probes.size (size.index address))
    · rw [page_of_entry_unlimited size table policy h hfetch, Trail.along_of_entry hfetch]
      dsimp only
      rw [Trail.trace_cons, ← extend_extend]
      by_cases onward : size.HasNext address
      · have hroom : (session.extend (Trail.trace size table.path policy
            { entries := [(address, entry)] })).sink.room = none := h
        have hrest := ih onward hroom
        rw [size_probes_extend] at hrest
        simp only [if_pos onward]
        exact hrest
      · simp only [if_neg onward]
        exact congrArg (EStateM.Result.ok Outcome.completed) (extend_empty _).symm
    · rw [page_of_halt_unlimited size table policy hfetch, Trail.along_of_halt hfetch]
      rfl
  | case2 address outside =>
    rw [pages_of_not_lt _ _ _ outside, size.addresses_of_not_lt outside]
    exact congrArg (EStateM.Result.ok Outcome.completed) session.extend_empty.symm

def spanTrace (earlier : Nat) (s : Span) : Trace :=
  let trail := Trail.ofSpan size table earlier s
  trail.trace size table.path policy ++
    { tally := ({} : Tally).count trail.outcome, notices := [.scanned s trail.outcome] }

theorem pagesRead_spanTrace (earlier : Nat) (s : Span) :
    (spanTrace size table policy earlier s).tally.pagesRead =
      (Trail.ofSpan size table earlier s).entries.length := by
  cases houtcome : (Trail.ofSpan size table earlier s).outcome <;>
    simp [spanTrace, Trail.trace, houtcome, Tally.count]

theorem pagesEmitted_spanTrace (earlier : Nat) (s : Span) :
    (spanTrace size table policy earlier s).tally.pagesEmitted =
      ((Trail.ofSpan size table earlier s).lines policy).length := by
  cases houtcome : (Trail.ofSpan size table earlier s).outcome <;>
    simp [spanTrace, Trail.trace, houtcome, Tally.count]

theorem span_of_unlimited (h : session.sink.room = none) (s : Span) :
    span size table policy s session =
      .ok (Trail.ofSpan size table session.probes.size s).outcome
        (session.extend (spanTrace size table policy session.probes.size s)) := by
  rw [span_of_ok (pages_of_unlimited size table policy h s.stop s.start), spanTrace,
    ← extend_extend]
  simp only [extend, ← Tally.count_eq_add]
  simp [Trail.ofSpan]

/-- The line of a span, and what its scan adds. -/
def blockTrace (earlier : Nat) (s : Span) : Trace :=
  { lines := [.span s] } ++ spanTrace size table policy earlier s

/-- What the scan of a source adds, up to the first failure in it. -/
def sourceTrace : Nat → Source → Trace
  | _, [] => {}
  | earlier, .span s :: rest =>
    let block := blockTrace size table policy earlier s
    block ++ sourceTrace (earlier + block.probes.length) rest
  | _, .failure _ :: _ => {}
  | earlier, .notice notice :: rest => { notices := [notice] } ++ sourceTrace earlier rest

def firstFailure (events : Source) : Option Failure :=
  events.findSome? fun
    | .failure failure => some failure
    | _ => none

theorem source_of_unlimited (h : session.sink.room = none) (events : Source) :
    source size table policy events session =
      let after := session.extend (sourceTrace size table policy session.probes.size events)
      match firstFailure events with
      | none => .ok () after
      | some failure => .error failure after := by
  induction events generalizing session with
  | nil => exact congrArg (EStateM.Result.ok ()) session.extend_empty.symm
  | cons e rest ih =>
    cases e with
    | span s =>
      have hannounced : (session.extend { lines := [.span s] }).sink.room = none := h
      have hspan := span_of_unlimited size table policy hannounced s
      rw [size_probes_extend, extend_extend] at hspan
      have hscanned :
          (session.extend (blockTrace size table policy session.probes.size s)).sink.room = none :=
        h
      have hrest := ih hscanned
      rw [size_probes_extend] at hrest
      simp only [extend_extend] at hrest
      rw [source, Action.bind_of_ok (emit_of_unlimited h (.span s)), Action.bind_of_ok hspan]
      exact hrest
    | failure failure => exact congrArg (EStateM.Result.error failure) session.extend_empty.symm
    | notice notice =>
      have hroom : (session.extend { notices := [notice] }).sink.room = none := h
      have hrest := ih hroom
      simp only [extend_extend] at hrest
      rw [source, Action.bind_of_ok (note_eq_extend session notice)]
      exact hrest

theorem final_source_of_unlimited (h : session.sink.room = none) (events : Source) :
    (source size table policy events).final session =
      session.extend (sourceTrace size table policy session.probes.size events) := by
  have hsource := source_of_unlimited size table policy h events
  cases hfailure : firstFailure events with
  | none =>
    rw [hfailure] at hsource
    exact Action.final_of_ok hsource
  | some failure =>
    rw [hfailure] at hsource
    exact Action.final_of_error hsource

end Scan

end FrameScan
