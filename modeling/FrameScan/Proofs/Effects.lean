import FrameScan.Scan
import FrameScan.Proofs.Stream

/-!
# What actions do

The result of an action and the session that it leaves, and one equation for
each of the basic actions that scans are made of.
-/

namespace FrameScan

namespace Action

variable {α β : Type}

def result (x : Action α) (session : Session) : Except Failure α :=
  match x session with
  | .ok a _ => .ok a
  | .error failure _ => .error failure

def final (x : Action α) (session : Session) : Session :=
  match x session with
  | .ok _ session => session
  | .error _ session => session

theorem result_of_ok {x : Action α} {session after : Session} {a : α}
    (h : x session = .ok a after) : x.result session = .ok a := by simp [result, h]

theorem final_of_ok {x : Action α} {session after : Session} {a : α}
    (h : x session = .ok a after) : x.final session = after := by simp [final, h]

theorem result_of_error {x : Action α} {session after : Session} {failure : Failure}
    (h : x session = .error failure after) : x.result session = .error failure := by
  simp [result, h]

theorem final_of_error {x : Action α} {session after : Session} {failure : Failure}
    (h : x session = .error failure after) : x.final session = after := by simp [final, h]

theorem bind_of_ok {x : Action α} {session after : Session} {a : α}
    (h : x session = .ok a after) (k : α → Action β) : (x >>= k) session = k a after := by
  simp only [bind, EStateM.bind, h]

theorem bind_of_error {x : Action α} {session after : Session} {failure : Failure}
    (h : x session = .error failure after) (k : α → Action β) :
    (x >>= k) session = .error failure after := by
  simp only [bind, EStateM.bind, h]

theorem final_bind {x : Action α} {k : α → Action β} {session : Session}
    {p : Session → Prop} (hx : p (x.final session))
    (hk : ∀ a after, p after → p ((k a).final after)) : p ((x >>= k).final session) := by
  cases h : x session with
  | ok a after =>
    rw [final_of_ok h] at hx
    rw [final, bind_of_ok h]
    exact hk a after hx
  | error failure after =>
    rw [final_of_error h] at hx
    rw [final_of_error (bind_of_error h k)]
    exact hx

/-- What holds of the value and the session of an action that succeeds, or of the session
of one that fails. -/
def Leads (x : Action α) (session : Session) (done : α → Session → Prop)
    (failed : Session → Prop) : Prop :=
  match x session with
  | .ok a after => done a after
  | .error _ after => failed after

namespace Leads

variable {x : Action α} {session : Session} {done : α → Session → Prop}
  {failed : Session → Prop}

theorem of_ok {after : Session} {a : α} (hx : x session = .ok a after) (h : done a after) :
    x.Leads session done failed := by
  rw [Leads, hx]
  exact h

theorem of_error {after : Session} {failure : Failure} (hx : x session = .error failure after)
    (h : failed after) : x.Leads session done failed := by
  rw [Leads, hx]
  exact h

theorem of_eq {y : Action α} {before : Session} (hx : x session = y before)
    (h : y.Leads before done failed) : x.Leads session done failed := by
  rwa [Leads, hx]

theorem bind {k : α → Action β} {done : β → Session → Prop}
    (h : x.Leads session (fun a after => (k a).Leads after done failed) failed) :
    Leads (x >>= k) session done failed := by
  cases hx : x session with
  | ok a after =>
    rw [Leads, hx] at h
    rwa [Leads, Action.bind_of_ok hx]
  | error failure after =>
    rw [Leads, hx] at h
    exact of_error (Action.bind_of_error hx k) h

theorem mono {done' : α → Session → Prop} {failed' : Session → Prop}
    (h : x.Leads session done failed) (hdone : ∀ a after, done a after → done' a after)
    (hfailed : ∀ after, failed after → failed' after) : x.Leads session done' failed' := by
  unfold Leads at h ⊢
  split
  next a after hx =>
    rw [hx] at h
    exact hdone a after h
  next hx =>
    rw [hx] at h
    exact hfailed _ h

end Leads

end Action

namespace Session

variable (session : Session)

/-- The session with another sink for what is written next. -/
def into (sink : Sink) : Session :=
  { session with sink }

theorem note_apply (notice : Notice) :
    note notice session = .ok () { session with notices := session.notices.push notice } := rfl

theorem countRead_apply :
    countRead session =
      .ok () { session with tally.pagesRead := session.tally.pagesRead + 1 } := rfl

theorem countEmitted_apply :
    countEmitted session =
      .ok () { session with tally.pagesEmitted := session.tally.pagesEmitted + 1 } := rfl

theorem countSpan_apply (outcome : Outcome) :
    countSpan outcome session = .ok () { session with tally := session.tally.count outcome } := rfl

def probeAt (size : PageSize) (address : UInt64) : Probe :=
  ⟨address, EntryTable.offset (size.index address)⟩

theorem probe_apply (size : PageSize) (table : EntryTable) (address : UInt64) :
    probe size table address session =
      .ok (table.fetch session.probes.size (size.index address))
        { session with probes := session.probes.push (probeAt size address) } := rfl

theorem emit_apply (line : Line) :
    emit line session =
      (match (session.sink.write line).1 with
        | some error => throw (.output error)
        | none => pure () : Action Unit)
        { session with sink := (session.sink.write line).2 } := rfl

theorem emit_of_taken {line : Line} (h : (session.sink.write line).1 = none) :
    emit line session = .ok () { session with sink := (session.sink.write line).2 } := by
  rw [emit_apply, h]
  rfl

theorem emit_of_refused {line : Line} {error : SystemError}
    (h : (session.sink.write line).1 = some error) :
    emit line session =
      .error (.output error) { session with sink := (session.sink.write line).2 } := by
  rw [emit_apply, h]
  rfl

theorem flush_apply :
    flush session = match session.sink.flushError with
      | some error => .error (.output error) session
      | none => .ok () session := by
  change (match session.sink.flushError with
    | some error => throw (.output error)
    | none => pure () : Action Unit) session = _
  cases session.sink.flushError <;> rfl

end Session

open Session

def PageContent.notices (address : UInt64) : PageContent → List Notice
  | .frame .. => []
  | .flags f => [.frameFlags address f]

/-- Why the scan of a span ends before the span does. -/
inductive Halt where
  | short (length : Nat)
  | fault (failure : Failure)

namespace Halt

/-- What a table answers where a scan ends early. -/
def answer : Halt → Except Failure Fetch
  | .short length => .ok (.short length)
  | .fault failure => .error failure

def outcome : Halt → Outcome
  | .short _ => .endOfTable
  | .fault _ => .aborted

def notice (table : Path) (address : UInt64) : Halt → Notice
  | .short length => .tableEnd table address length
  | .fault failure => .tableFault table failure

end Halt

theorem entry_or_halt (answer : Except Failure Fetch) :
    (∃ entry, answer = .ok (.entry entry)) ∨ ∃ halt : Halt, answer = halt.answer := by
  rcases answer with failure | entry | length
  · exact .inr ⟨.fault failure, rfl⟩
  · exact .inl ⟨entry, rfl⟩
  · exact .inr ⟨.short length, rfl⟩

namespace EntryTable

variable {table : EntryTable} {earlier : Nat} {index : UInt64}

theorem fetch_of_full {bytes : List UInt8} (h : table.read earlier (offset index) = .ok bytes)
    (hlength : bytes.length = 8) : table.fetch earlier index = .ok (.entry ⟨bytes, hlength⟩) := by
  rw [fetch, h]
  simp only [dif_pos hlength]

theorem fetch_of_short {bytes : List UInt8} (h : table.read earlier (offset index) = .ok bytes)
    (hlength : bytes.length ≠ 8) :
    table.fetch earlier index = (Halt.short bytes.length).answer := by
  rw [fetch, h]
  simp only [dif_neg hlength, Halt.answer]

theorem fetch_of_error {cause : SystemError}
    (h : table.read earlier (offset index) = .error cause) :
    table.fetch earlier index =
      (Halt.fault (.malformedEntry (some (offset index)) 0 (some cause))).answer := by
  rw [fetch, h, Halt.answer]

end EntryTable

namespace Scan

variable {size : PageSize} {table : EntryTable} {policy : Policy} {address : UInt64}
  {session : Session}

def noting (session : Session) (address : UInt64) (content : PageContent) : Session :=
  { session with notices := session.notices ++ (content.notices address).toArray }

theorem noteContent_apply (content : PageContent) :
    noteContent address content session = .ok () (noting session address content) := by
  cases content with
  | frame => simp [noteContent, noting, PageContent.notices]; rfl
  | flags f => simp [noteContent, noting, PageContent.notices, note_apply]

theorem report_of_none {entry : Entry} (h : policy.content? entry = none) :
    report policy address entry session = .ok () session := by
  simp only [report, h]
  rfl

theorem report_of_some {entry : Entry} {content : PageContent}
    (h : policy.content? entry = some content) :
    report policy address entry session =
      (emit (.page address content) >>= fun _ => countEmitted)
        (noting session address content) := by
  simp only [report, h]
  exact Action.bind_of_ok (noteContent_apply content) _

def asked (session : Session) (size : PageSize) (address : UInt64) : Session :=
  { session with probes := session.probes.push (probeAt size address) }

theorem page_of_entry {entry : Entry}
    (h : table.fetch session.probes.size (size.index address) = .ok (.entry entry)) :
    page size table policy address session =
      (report policy address entry >>= fun _ => pure none)
        { asked session size address with tally.pagesRead := session.tally.pagesRead + 1 } := by
  unfold page
  rw [Action.bind_of_ok (probe_apply session size table address), h]
  rfl

theorem page_of_halt {halt : Halt}
    (h : table.fetch session.probes.size (size.index address) = halt.answer) :
    page size table policy address session =
      .ok (some halt.outcome)
        { asked session size address with
          notices := session.notices.push (halt.notice table.path address) } := by
  unfold page
  rw [Action.bind_of_ok (probe_apply session size table address), h]
  cases halt <;> rfl

theorem span_of_ok {s : Span} {outcome : Outcome} {after : Session}
    (h : pages size table policy s.stop s.start session = .ok outcome after) :
    span size table policy s session =
      .ok outcome { after with
        notices := after.notices.push (.scanned s outcome)
        tally := after.tally.count outcome } := by
  unfold span
  rw [Action.bind_of_ok h]
  rfl

end Scan

end FrameScan
