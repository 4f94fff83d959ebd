import FrameScan.Proofs.Routine
import FrameScan.Source.Iomem
import FrameScan.Source.Maps

/-!
# Bookkeeping

The counts of a session agree with what was read, written and noted in it, after
every call of a scanner and whatever became of the calls before. A ledger keeps,
beside the session, what the counts have to agree with.
-/

namespace FrameScan

open Session

/-- Whether a notice is an error that says that a table could not be read. -/
def Notice.isReadFault (notice : Notice) : Bool :=
  notice.level = .error && "Can't read from ".toList.isPrefixOf notice.text.toList

theorem Notice.isReadFault_tableFault (table : Path) (failure : Failure) :
    (Notice.tableFault table failure).isReadFault = true := by
  have htext : (tableFault table failure).text =
      "Can't read from " ++ (table.display ++ (": " ++ failure.message)) := by
    unfold text
    simp only [String.append_assoc]
    rfl
  have hprefix : "Can't read from ".toList.isPrefixOf (tableFault table failure).text.toList := by
    rw [htext, String.toList_append]
    exact List.isPrefixOf_iff_prefix.mpr (List.prefix_append _ _)
  simp only [isReadFault, level, hprefix, decide_true, Bool.and_self]

theorem Notice.isReadFault_of_text {notice : Notice} {rest : String}
    (h : notice.text = "Unable to parse " ++ rest) : notice.isReadFault = false := by
  have hprefix : "Can't read from ".toList.isPrefixOf notice.text.toList = false := by
    rw [h, String.toList_append]
    rfl
  rw [isReadFault, hprefix, Bool.and_false]

theorem Notice.isReadFault_unreadableMapping (line : String) :
    (Notice.unreadableMapping line).isReadFault = false := by
  have hstart : "Unable to parse " ++ "maps line: " = "Unable to parse maps line: " := by decide
  have htext : (unreadableMapping line).text = "Unable to parse " ++ ("maps line: " ++ line) := by
    rw [← String.append_assoc, hstart]
    rfl
  exact isReadFault_of_text htext

/-- The line may begin like the notice of a read fault. -/
example : (Notice.unreadableMapping "Can't read from pagemap").isReadFault = false := by
  decide +kernel

theorem Notice.isReadFault_unreadableRegion (line : String) :
    (Notice.unreadableRegion line).isReadFault = false := by
  have hstart : "Unable to parse " ++ "iomem line: " = "Unable to parse iomem line: " := by decide
  have htext : (unreadableRegion line).text = "Unable to parse " ++ ("iomem line: " ++ line) := by
    rw [← String.append_assoc, hstart]
    rfl
  exact isReadFault_of_text htext

def Session.readFaults (session : Session) : Nat :=
  session.notices.toList.countP Notice.isReadFault

structure Ledger where
  /-- The scans of spans that came to an end. -/
  finished : Nat := 0
  /-- The page lines that the sinks of earlier calls have taken. -/
  printed : Nat := 0
  /-- The read faults that came out of sources. -/
  relayed : Nat := 0

structure Balanced (ledger : Ledger) (session : Session) : Prop where
  reads : session.probes.size =
    session.tally.pagesRead + session.tally.truncated + session.tally.aborted
  spans : session.tally.spans = ledger.finished
  cut_le : session.tally.truncated + session.tally.aborted ≤ session.tally.spans
  emitted : session.tally.pagesEmitted = ledger.printed + session.sink.pageLines
  emitted_le : session.tally.pagesEmitted ≤ session.tally.pagesRead
  faults : session.readFaults = ledger.relayed + session.tally.aborted

namespace Source.Event

def isSpan : Source.Event → Bool
  | .span _ => true
  | _ => false

def isReadFault : Source.Event → Bool
  | .notice n => n.isReadFault
  | _ => false

end Source.Event

namespace Source

/-- A source none of whose notices could be taken for one of a scan. -/
def Quiet (source : Source) : Prop :=
  ∀ e ∈ source, e.isReadFault = false

variable (settings : Settings)

theorem maps_quiet (listing : Listing) : (maps settings listing).Quiet := by
  intro e he
  obtain ⟨item, -, rfl⟩ := List.mem_map.mp he
  cases item with
  | error cause => rfl
  | ok line =>
    unfold Maps.event
    dsimp only
    split
    · rfl
    · exact Notice.isReadFault_unreadableMapping line

theorem iomem_quiet (listing : Listing) : (iomem settings listing).Quiet := by
  intro e he
  obtain ⟨item, -, hevent⟩ := List.mem_filterMap.mp he
  simp only [Iomem.event?] at hevent
  repeat' split at hevent
  all_goals cases hevent
  · rfl
  · rfl
  · exact Notice.isReadFault_unreadableRegion _

theorem physical_quiet : (physical settings).Quiet := by
  intro e he
  cases List.mem_singleton.mp he
  rfl

end Source

namespace Ledger

def finish (ledger : Ledger) : Ledger :=
  { ledger with finished := ledger.finished + 1 }

/-- The ledger after the scan has gone through events of a source. -/
def pass (ledger : Ledger) (events : Source) : Ledger :=
  { ledger with
    finished := ledger.finished + events.countP Source.Event.isSpan
    relayed := ledger.relayed + events.countP Source.Event.isReadFault }

/-- The ledger when a sink is put aside and another one takes its place. -/
def hand (ledger : Ledger) (sink : Sink) : Ledger :=
  { ledger with printed := ledger.printed + sink.pageLines }

theorem pass_span (ledger : Ledger) (s : Span) : ledger.pass [.span s] = ledger.finish := by
  simp [pass, finish, Source.Event.isSpan, Source.Event.isReadFault]

theorem pass_append (ledger : Ledger) (first second : Source) :
    ledger.pass (first ++ second) = (ledger.pass first).pass second := by
  simp [pass, Nat.add_assoc]

end Ledger

namespace Balanced

variable {ledger : Ledger} {session : Session}

theorem into (h : Balanced ledger session) {sink : Sink} (hsink : sink.lines = #[]) :
    Balanced (ledger.hand session.sink) (session.into sink) :=
  { h with
    emitted := by
      have hemitted := h.emitted
      simpa [Ledger.hand, Session.into, Sink.pageLines, hsink] using hemitted }

theorem of_notice (h : Balanced ledger session) {notice : Notice}
    (hn : notice.isReadFault = false) :
    Balanced ledger { session with notices := session.notices.push notice } :=
  { h with faults := by simpa [readFaults, hn] using h.faults }

theorem of_noting (h : Balanced ledger session) (address : UInt64) (content : PageContent) :
    Balanced ledger (Scan.noting session address content) := by
  cases content with
  | frame => simpa [Scan.noting, PageContent.notices] using h
  | flags f => simpa [Scan.noting, PageContent.notices] using h.of_notice rfl

theorem of_line (h : Balanced ledger session) {line : Line}
    (hline : line.isPage = false ∨ (session.sink.write line).1 ≠ none) :
    Balanced ledger { session with sink := (session.sink.write line).2 } := by
  have hcount : (session.sink.write line).2.pageLines = session.sink.pageLines := by
    rw [Sink.pageLines, Sink.write_lines]
    split
    next hnone =>
      have hpage := hline.resolve_right (absurd hnone)
      simp [Sink.pageLines, hpage]
    next => rfl
  exact { h with emitted := by simpa [hcount] using h.emitted }

theorem of_read (h : Balanced ledger session) (size : PageSize) (address : UInt64) :
    Balanced ledger
      { Scan.asked session size address with
        tally.pagesRead := session.tally.pagesRead + 1 } := by
  have hreads := h.reads
  have hle := h.emitted_le
  exact
    { h with
      reads := by
        simp only [Scan.asked, Array.size_push]
        omega
      emitted_le := Nat.le_succ_of_le hle }

theorem of_page_line (h : Balanced ledger session)
    (hlt : session.tally.pagesEmitted < session.tally.pagesRead) {address : UInt64}
    {content : PageContent} (htaken : (session.sink.write (.page address content)).1 = none) :
    Balanced ledger
      { session with
        sink := (session.sink.write (.page address content)).2
        tally.pagesEmitted := session.tally.pagesEmitted + 1 } := by
  have hcount : (session.sink.write (.page address content)).2.pageLines =
      session.sink.pageLines + 1 := by
    rw [Sink.pageLines, Sink.write_lines, if_pos htaken]
    simp [Sink.pageLines, Line.isPage]
  have hemitted := h.emitted
  exact
    { h with
      emitted := by
        simp only [hcount]
        omega
      emitted_le := hlt }

theorem of_completed (h : Balanced ledger session) :
    Balanced ledger.finish { session with tally := session.tally.count .completed } := by
  have hspans := h.spans
  have hle := h.cut_le
  exact
    { h with
      spans := by
        simp only [Tally.count, Ledger.finish]
        omega
      cut_le := Nat.le_succ_of_le hle }

theorem of_halt (h : Balanced ledger session) (size : PageSize) (address : UInt64)
    (table : Path) (halt : Halt) :
    Balanced ledger.finish
      { Scan.asked session size address with
        notices := session.notices.push (halt.notice table address)
        tally := session.tally.count halt.outcome } := by
  have hreads := h.reads
  have hspans := h.spans
  have hle := h.cut_le
  have hfaults : (session.notices.push (halt.notice table address)).toList.countP
      Notice.isReadFault = ledger.relayed + (session.tally.count halt.outcome).aborted := by
    have hbefore := h.faults
    rw [readFaults] at hbefore
    cases halt with
    | short length =>
      have hnotice : ((Halt.short length).notice table address).isReadFault = false := rfl
      simpa [hnotice, Halt.outcome, Tally.count] using hbefore
    | fault failure =>
      have hnotice : ((Halt.fault failure).notice table address).isReadFault = true :=
        Notice.isReadFault_tableFault table failure
      simp only [Array.toList_push, List.countP_append, List.countP_singleton, hnotice, hbefore,
        if_pos, Halt.outcome, Tally.count]
      omega
  -- The read is no page read, so it is the span that counts for it.
  have hcut : (session.tally.count halt.outcome).truncated +
      (session.tally.count halt.outcome).aborted =
        session.tally.truncated + session.tally.aborted + 1 := by
    cases halt with
    | short length => exact Nat.add_right_comm _ _ _
    | fault failure => rfl
  have hspan : (session.tally.count halt.outcome).spans = session.tally.spans + 1 := by
    cases halt <;> rfl
  have hread : (session.tally.count halt.outcome).pagesRead = session.tally.pagesRead := by
    cases halt <;> rfl
  have hemitted : (session.tally.count halt.outcome).pagesEmitted =
      session.tally.pagesEmitted := by
    cases halt <;> rfl
  refine ⟨?_, ?_, ?_, hemitted.trans h.emitted, ?_, hfaults⟩
  · simp only [Scan.asked, Array.size_push]
    omega
  · simp only [Ledger.finish]
    omega
  · dsimp only
    omega
  · simp only [hemitted, hread]
    exact h.emitted_le

end Balanced

namespace Scan

variable (size : PageSize) (table : EntryTable) (policy : Policy) {ledger : Ledger}
  {session : Session}

theorem report_balanced (h : Balanced ledger session)
    (hlt : session.tally.pagesEmitted < session.tally.pagesRead) (address : UInt64)
    (entry : Entry) :
    (report policy address entry).Leads session (fun _ => Balanced ledger) (Balanced ledger) := by
  cases hcontent : policy.content? entry with
  | none => exact .of_ok (report_of_none hcontent) h
  | some content =>
    refine .of_eq (report_of_some hcontent) ?_
    have hnoting := h.of_noting address content
    cases htaken : ((noting session address content).sink.write (.page address content)).1 with
    | none =>
      exact .bind (.of_ok (emit_of_taken _ htaken)
        (.of_ok (countEmitted_apply _) (hnoting.of_page_line hlt htaken)))
    | some error =>
      exact .bind (.of_error (emit_of_refused _ htaken) (hnoting.of_line (.inr (by simp [htaken]))))

/-- One page keeps the balance, or ends the scan with an outcome that restores it once it
is counted. -/
theorem page_balanced (h : Balanced ledger session) (address : UInt64) :
    (page size table policy address).Leads session
      (fun ended after =>
        match ended with
        | none => Balanced ledger after
        | some outcome =>
          Balanced ledger.finish { after with tally := after.tally.count outcome })
      (Balanced ledger) := by
  obtain ⟨entry, hfetch⟩ | ⟨halt, hfetch⟩ :=
    entry_or_halt (table.fetch session.probes.size (size.index address))
  · have hread := h.of_read size address
    have hlt := Nat.lt_succ_of_le h.emitted_le
    have hreport := report_balanced policy hread hlt address entry
    refine .of_eq (page_of_entry hfetch) (.bind (hreport.mono ?_ fun _ => id))
    exact fun _ _ hafter => .of_ok rfl hafter
  · exact .of_ok (page_of_halt hfetch) (h.of_halt size address table.path halt)

theorem pages_balanced (h : Balanced ledger session) (stop address : UInt64) :
    (pages size table policy stop address).Leads session
      (fun outcome after =>
        Balanced ledger.finish { after with tally := after.tally.count outcome })
      (Balanced ledger) := by
  induction address using pages.induct size stop generalizing session with
  | case1 address inside ih =>
    rw [pages, dif_pos inside]
    refine .bind ((page_balanced size table policy h address).mono ?_ fun _ => id)
    intro ended after hafter
    cases ended with
    | some outcome => exact .of_ok rfl hafter
    | none =>
      by_cases onward : size.HasNext address
      · simpa only [dif_pos onward] using ih onward hafter
      · simp only [dif_neg onward]
        exact .of_ok rfl hafter.of_completed
  | case2 address outside => exact .of_ok (pages_of_not_lt _ _ _ outside _) h.of_completed

theorem span_balanced (h : Balanced ledger session) (s : Span) :
    (span size table policy s).Leads session (fun _ => Balanced ledger.finish)
      (Balanced ledger) := by
  refine .bind ((pages_balanced size table policy h s.stop s.start).mono ?_ fun _ => id)
  intro outcome after hafter
  have hscanned : (Notice.scanned s outcome).isReadFault = false := rfl
  exact .of_ok rfl (hafter.of_notice hscanned)

def event : Source.Event → Action Unit
  | .span s => do
    emit (.span s)
    let _ ← span size table policy s
    return
  | .failure failure => throw failure
  | .notice notice => note notice

theorem source_cons (e : Source.Event) (rest : Source) :
    source size table policy (e :: rest) =
      (event size table policy e >>= fun _ => source size table policy rest) := by
  cases e with
  | span s => simp only [source, event, bind_assoc, pure_bind]
  | failure failure => rfl
  | notice notice => rfl

def passed : Source → Session → Source
  | [], _ => []
  | e :: rest, session =>
    match event size table policy e session with
    | .ok _ after => e :: passed rest after
    | .error _ _ => []

theorem passed_prefix (events : Source) (session : Session) :
    passed size table policy events session <+: events := by
  induction events generalizing session with
  | nil => exact List.prefix_refl _
  | cons e rest ih =>
    rw [passed]
    split
    next after _ => exact List.cons_prefix_cons.mpr ⟨rfl, ih after⟩
    next => exact List.nil_prefix

theorem event_balanced (h : Balanced ledger session) (e : Source.Event) :
    (event size table policy e).Leads session (fun _ => Balanced (ledger.pass [e]))
      (Balanced ledger) := by
  cases e with
  | span s =>
    rw [Ledger.pass_span]
    cases htaken : (session.sink.write (.span s)).1 with
    | none =>
      refine .bind (.of_ok (emit_of_taken _ htaken) (.bind ?_))
      exact (span_balanced size table policy (h.of_line (.inl rfl)) s).mono
        (fun _ _ hafter => .of_ok rfl hafter) fun _ => id
    | some error =>
      exact .bind (.of_error (emit_of_refused _ htaken) (h.of_line (.inl rfl)))
  | failure failure => exact .of_error rfl h
  | notice notice =>
    refine .of_ok (note_apply _ _) ?_
    have hfaults := h.faults
    exact
      { h with
        faults := by
          simp only [readFaults] at hfaults
          cases hn : notice.isReadFault <;>
            simp [readFaults, hfaults, hn, Ledger.pass, Source.Event.isReadFault,
              Nat.add_right_comm] }

theorem source_balanced (h : Balanced ledger session) (events : Source) :
    Balanced (ledger.pass (passed size table policy events session))
      ((source size table policy events).final session) := by
  induction events generalizing ledger session with
  | nil => exact h
  | cons e rest ih =>
    have hevent := event_balanced size table policy h e
    rw [source_cons, passed]
    cases hresult : event size table policy e session with
    | ok a after =>
      rw [Action.Leads, hresult] at hevent
      rw [Action.final, Action.bind_of_ok hresult]
      exact Ledger.pass_append ledger [e] _ ▸ ih hevent
    | error failure after =>
      rw [Action.Leads, hresult] at hevent
      rw [Action.final_of_error (Action.bind_of_error hresult _)]
      exact hevent

end Scan

/-! ## The calls of a scanner -/

/-- What a call scans: one span, or all that a source yields. -/
inductive Job where
  | span (s : Span)
  | source (events : Source)

/-- A call of a scanner, with a table, a policy and a sink of its own. -/
structure Call where
  table : EntryTable
  policy : Policy
  job : Job
  room : Option Nat := none
  fullError : SystemError := .numbered 28

namespace Call

variable (size : PageSize) (call : Call)

def sink : Sink :=
  { room := call.room, fullError := call.fullError }

def events : Source :=
  match call.job with
  | .span s => [.span s]
  | .source events => events

def final (session : Session) : Session :=
  match call.job with
  | .span s => (Scan.span size call.table call.policy s).final session
  | .source events => (Scan.source size call.table call.policy events).final session

def passed (session : Session) : Source :=
  match call.job with
  | .span s =>
    match Scan.span size call.table call.policy s session with
    | .ok _ _ => [.span s]
    | .error _ _ => []
  | .source events => Scan.passed size call.table call.policy events session

theorem mem_events_of_mem_passed {session : Session} {e : Source.Event}
    (h : e ∈ call.passed size session) : e ∈ call.events := by
  unfold passed at h
  unfold events
  cases hjob : call.job with
  | span s =>
    simp only [hjob] at h
    split at h
    · exact h
    · exact absurd h List.not_mem_nil
  | source events =>
    rw [hjob] at h
    exact (Scan.passed_prefix _ _ _ events session).subset h

theorem balanced {ledger : Ledger} {session : Session} (h : Balanced ledger session) :
    Balanced (ledger.pass (call.passed size session)) (call.final size session) := by
  unfold passed final
  cases call.job with
  | span s =>
    have hspan := Scan.span_balanced size call.table call.policy h s
    dsimp only
    cases hresult : Scan.span size call.table call.policy s session with
    | ok outcome after =>
      rw [Action.Leads, hresult] at hspan
      rw [Action.final_of_ok hresult]
      exact Ledger.pass_span ledger s ▸ hspan
    | error failure after =>
      rw [Action.Leads, hresult] at hspan
      rw [Action.final_of_error hresult]
      exact hspan
  | source events => exact Scan.source_balanced size call.table call.policy h events

theorem precedes (session : Session) : session.Precedes (call.final size session) := by
  unfold final
  cases call.job with
  | span s =>
    have hroutine : Routine (fun _ => False) (Scan.span size call.table call.policy s) :=
      Scan.span_routine _ _ _ s
    exact hroutine.precedes session
  | source events =>
    have hroutine : Routine (fun _ => True) (Scan.source size call.table call.policy events) :=
      Scan.source_routine _ _ _ fun _ _ => trivial
    exact hroutine.precedes session

end Call

/-- What has become of a scanner in a sequence of calls. -/
structure History where
  session : Session := {}
  /-- The events that the calls got through. -/
  passed : Source := []
  /-- The sinks of the calls, each as its call left it. -/
  sinks : List Sink := []

namespace History

variable (size : PageSize)

def next (history : History) (call : Call) : History :=
  let start := history.session.into call.sink
  let after := call.final size start
  { session := after
    passed := history.passed ++ call.passed size start
    sinks := history.sinks ++ [after.sink] }

def of (calls : List Call) : History :=
  calls.foldl (next size) {}

def pageLines (history : History) : Nat :=
  (history.sinks.flatMap fun sink => sink.lines.toList).countP Line.isPage

/-- What the counts of a scanner have to agree with before its next call. -/
def ledger (history : History) : Ledger :=
  { finished := history.passed.countP Source.Event.isSpan
    printed := history.pageLines
    relayed := history.passed.countP Source.Event.isReadFault }

theorem ledger_next (history : History) (call : Call) :
    (history.next size call).ledger =
      (history.ledger.pass (call.passed size (history.session.into call.sink))).hand
        (history.next size call).session.sink := by
  simp [ledger, next, pageLines, Ledger.pass, Ledger.hand, Sink.pageLines]

theorem next_balanced {history : History} (call : Call)
    (h : Balanced history.ledger (history.session.into {})) :
    Balanced (history.next size call).ledger ((history.next size call).session.into {}) := by
  have hstart : Balanced history.ledger (history.session.into call.sink) := h.into rfl
  rw [ledger_next]
  exact (call.balanced size hstart).into rfl

theorem of_balanced (calls : List Call) :
    Balanced (of size calls).ledger ((of size calls).session.into {}) := by
  have hfold (history : History) (h : Balanced history.ledger (history.session.into {})) :
      Balanced (calls.foldl (next size) history).ledger
        ((calls.foldl (next size) history).session.into {}) := by
    induction calls generalizing history with
    | nil => exact h
    | cons call rest ih => exact ih _ (next_balanced size call h)
  exact hfold {} ⟨rfl, rfl, Nat.le_refl _, rfl, Nat.le_refl _, rfl⟩

theorem mem_passed_foldl {calls : List Call} {history : History} {e : Source.Event}
    (h : e ∈ (calls.foldl (next size) history).passed) :
    e ∈ history.passed ∨ ∃ call ∈ calls, e ∈ call.events := by
  induction calls generalizing history with
  | nil => exact .inl h
  | cons call rest ih =>
    rcases ih h with hmem | ⟨later, hlater, hmem⟩
    · rcases List.mem_append.mp hmem with hmem | hmem
      · exact .inl hmem
      · exact .inr ⟨call, List.mem_cons_self, call.mem_events_of_mem_passed size hmem⟩
    · exact .inr ⟨later, List.mem_cons_of_mem _ hlater, hmem⟩

theorem readFaults_of_quiet {calls : List Call} (h : ∀ call ∈ calls, call.events.Quiet) :
    (of size calls).session.readFaults = (of size calls).session.tally.aborted := by
  have hnone : (of size calls).passed.countP Source.Event.isReadFault = 0 := by
    refine List.countP_eq_zero.mpr fun e hmem => ?_
    obtain ⟨call, hcall, hevent⟩ := (mem_passed_foldl size hmem).resolve_left List.not_mem_nil
    rw [h call hcall e hevent]
    exact Bool.false_ne_true
  have hfaults : (of size calls).session.readFaults =
      (of size calls).passed.countP Source.Event.isReadFault +
        (of size calls).session.tally.aborted := (of_balanced size calls).faults
  rw [hfaults, hnone, Nat.zero_add]

theorem tally_le_append (calls more : List Call) :
    (of size calls).session.tally ≤ (of size (calls ++ more)).session.tally := by
  rw [of, of, List.foldl_append]
  generalize calls.foldl (next size) {} = history
  induction more generalizing history with
  | nil => exact Tally.le_refl _
  | cons call rest ih =>
    exact Tally.le_trans (call.precedes size (history.session.into call.sink)).tally
      (ih (history.next size call))

end History

/-- After any calls of a scanner: each read was counted as a page read or as the end of
a span that was cut short, no more spans were cut short than were scanned to an end, each
page line that a sink took was counted and was of a page read, and each span abandoned was
noted. No count is less after further calls. Read faults that a source itself gives are
told apart. -/
theorem scanner_counts_balance (size : PageSize) (calls : List Call) :
    let history := History.of size calls
    let tally := history.session.tally
    history.session.probes.size = tally.pagesRead + tally.truncated + tally.aborted ∧
    tally.spans = history.passed.countP Source.Event.isSpan ∧
    tally.truncated + tally.aborted ≤ tally.spans ∧
    tally.pagesEmitted = history.pageLines ∧
    tally.pagesEmitted ≤ tally.pagesRead ∧
    history.session.readFaults =
      history.passed.countP Source.Event.isReadFault + tally.aborted ∧
    ((∀ call ∈ calls, ∀ e ∈ call.events, e.isReadFault = false) →
      history.session.readFaults = tally.aborted) ∧
    ∀ more, tally ≤ (History.of size (calls ++ more)).session.tally := by
  intro history tally
  have hbalanced := History.of_balanced size calls
  refine ⟨hbalanced.reads, hbalanced.spans, hbalanced.cut_le, hbalanced.emitted,
    hbalanced.emitted_le, hbalanced.faults, ?_, History.tally_le_append size calls⟩
  exact History.readFaults_of_quiet size

/-- The scans that surveys are made of: of one span, of a listing, or of all physical memory. -/
inductive Job.Produced (settings : Settings) : Job → Prop
  | span (s : Span) : Produced settings (.span s)
  | maps (listing : Listing) : Produced settings (.source (.maps settings listing))
  | iomem (listing : Listing) : Produced settings (.source (.iomem settings listing))
  | physical : Produced settings (.source (.physical settings))

theorem Call.quiet_of_produced {settings : Settings} {call : Call}
    (h : call.job.Produced settings) : call.events.Quiet := by
  obtain ⟨table, policy, job⟩ := call
  cases h with
  | span s =>
    intro e he
    cases List.mem_singleton.mp he
    rfl
  | maps listing => exact Source.maps_quiet settings listing
  | iomem listing => exact Source.iomem_quiet settings listing
  | physical => exact Source.physical_quiet settings

/-- In any sequence of these scans, the read faults that are noted are as many as the spans that
were abandoned. -/
theorem read_faults_are_aborted_spans (size : PageSize) (settings : Settings) (calls : List Call)
    (h : ∀ call ∈ calls, call.job.Produced settings) :
    let session := (History.of size calls).session
    session.readFaults = session.tally.aborted :=
  History.readFaults_of_quiet size fun call hcall => Call.quiet_of_produced (h call hcall)

end FrameScan
