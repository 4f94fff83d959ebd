import FrameScan.Survey
import FrameScan.Proofs.Routine

/-!
# Limited output

A run whose output has limited room, beside the run of the same action whose
output has no limit. The two are in step until a line does not fit. There the
limited run ends, and the other only adds to what both have done: so a failing
output loses the end of a run, and changes nothing before it.
-/

namespace FrameScan

open Session

variable {room : Nat} {error : SystemError} {flushError : Option SystemError}

/-- Two sessions that differ in the limit of their output, which is not reached. -/
structure InStep (room : Nat) (error : SystemError) (flushError : Option SystemError)
    (free limited : Session) : Prop where
  tally : limited.tally = free.tally
  probes : limited.probes = free.probes
  notices : limited.notices = free.notices
  lines : limited.sink.lines = free.sink.lines
  rest : limited.sink.rest = .empty
  unlimited : free.sink.room = none
  left : limited.sink.room = some (room - free.sink.accepted.size)
  within : free.sink.accepted.size ≤ room
  fullError : limited.sink.fullError = error
  flushError : limited.sink.flushError = flushError
  flushes : free.sink.flushError = none

namespace InStep

variable {free limited : Session}

theorem accepted (h : InStep room error flushError free limited) :
    limited.sink.accepted = free.sink.accepted := by
  have hrest : free.sink.rest = .empty := free.sink.rest_eq_empty (by simp [h.unlimited])
  rw [Sink.accepted_eq, Sink.accepted_eq, h.lines, h.rest, hrest]

theorem of_note (h : InStep room error flushError free limited) (notice : Notice) :
    InStep room error flushError { free with notices := free.notices.push notice }
      { limited with notices := limited.notices.push notice } :=
  { h with notices := by simp [h.notices] }

theorem of_probe (h : InStep room error flushError free limited) (probe : Probe) :
    InStep room error flushError { free with probes := free.probes.push probe }
      { limited with probes := limited.probes.push probe } :=
  { h with probes := by simp [h.probes] }

theorem of_tally (h : InStep room error flushError free limited) (count : Tally → Tally) :
    InStep room error flushError { free with tally := count free.tally }
      { limited with tally := count limited.tally } :=
  { h with tally := by simp [h.tally] }

theorem of_line (h : InStep room error flushError free limited) (line : Line)
    (hfits : line.bytes.size ≤ room - free.sink.accepted.size) :
    InStep room error flushError { free with sink := (free.sink.write line).2 }
      { limited with sink := (limited.sink.write line).2 } := by
  obtain ⟨-, hlines, hrest, hroom⟩ := Sink.write_of_fits h.left hfits
  have hfree := Sink.write_of_unlimited h.unlimited line
  have hsize : (free.sink.push [line]).accepted.size =
      free.sink.accepted.size + line.bytes.size := by
    rw [Sink.accepted_push h.unlimited]
    simp
  have hwithin := h.within
  exact
    { h with
      lines := by simp [hlines, hfree, h.lines, Sink.push]
      rest := hrest.trans h.rest
      unlimited := by simp [hfree, h.unlimited]
      left := by
        simp only [hroom, hfree, hsize]
        congr 1
        omega
      within := by
        simp only [hfree, hsize]
        omega
      fullError := (Sink.write_fullError _ _).trans h.fullError
      flushError := (Sink.write_flushError _ _).trans h.flushError
      flushes := (Sink.write_flushError _ _).trans h.flushes }

end InStep

/-- A session whose output is full, beside one that went on without a limit. -/
structure Stopped (room : Nat) (free limited : Session) : Prop where
  beyond : room < free.sink.accepted.size
  accepted : limited.sink.accepted = free.sink.accepted.extract 0 room
  probes : limited.probes.toList <+: free.probes.toList
  notices : limited.notices.toList <+: free.notices.toList

theorem Stopped.of_precedes {free later limited : Session} (h : Stopped room free limited)
    (hp : free.Precedes later) : Stopped room later limited := by
  obtain ⟨bytes, hbytes⟩ := hp.accepted
  have hbeyond := h.beyond
  refine ⟨?_, ?_, h.probes.trans hp.probes, h.notices.trans hp.notices⟩
  · rw [hbytes, ByteArray.size_append]
    omega
  · have hnone : bytes.extract 0 (room - free.sink.accepted.size) = .empty := by
      rw [ByteArray.extract_eq_empty_iff]
      omega
    rw [h.accepted, hbytes, ByteArray.extract_append, Nat.zero_sub, hnone, ByteArray.append_empty]

theorem InStep.stopped {free limited : Session} (h : InStep room error flushError free limited)
    {line : Line} (hlt : room - free.sink.accepted.size < line.bytes.size) :
    Stopped room { free with sink := (free.sink.write line).2 }
      { limited with sink := (limited.sink.write line).2 } := by
  have hwithin := h.within
  have hfree : (free.sink.write line).2.accepted = free.sink.accepted ++ line.bytes := by
    rw [Sink.write_of_unlimited h.unlimited, Sink.accepted_push h.unlimited]
    simp
  refine ⟨?_, ?_, ?_, ?_⟩
  · rw [hfree, ByteArray.size_append]
    omega
  · rw [(Sink.write_of_overflow h.left hlt).2, h.accepted, hfree, ByteArray.extract_append,
      Nat.zero_sub, extract_of_size_le hwithin]
  · simp [h.probes]
  · simp [h.notices]

/-- How a limited run of an action ends: as the free one does and in step with it, or
for lack of room. -/
inductive Follows (room : Nat) (error : SystemError) (flushError : Option SystemError)
    {α : Type} (x : Action α) (free limited : Session) : Prop
  | ok {a : α} {after after' : Session} (hx : x free = .ok a after)
      (hx' : x limited = .ok a after') (h : InStep room error flushError after after')
  | error {failure : Failure} {after after' : Session} (hx : x free = .error failure after)
      (hx' : x limited = .error failure after') (h : InStep room error flushError after after')
  | cut {after' : Session} (hx' : x limited = .error (.output error) after')
      (h : Stopped room (x.final free) after')

theorem emit_follows {free limited : Session} (h : InStep room error flushError free limited)
    (line : Line) : Follows room error flushError (emit line) free limited := by
  have htaken : (free.sink.write line).1 = none := by
    rw [Sink.write_of_unlimited h.unlimited]
  have hfree := emit_of_taken free htaken
  by_cases hfits : line.bytes.size ≤ room - free.sink.accepted.size
  · exact .ok hfree (emit_of_taken limited (Sink.write_of_fits h.left hfits).1)
      (h.of_line line hfits)
  · have hlt := Nat.lt_of_not_le hfits
    refine .cut (emit_of_refused limited ?_) ?_
    · exact h.fullError ▸ (Sink.write_of_overflow h.left hlt).1
    · rw [Action.final_of_ok hfree]
      exact h.stopped hlt

theorem Follows.bind {α β : Type} {x : Action α} {k : α → Action β} {free limited : Session}
    {raised : Failure → Prop} (hx : Follows room error flushError x free limited)
    (hroutine : ∀ a, Routine raised (k a))
    (hk : ∀ a free limited, InStep room error flushError free limited →
      Follows room error flushError (k a) free limited) :
    Follows room error flushError (x >>= k) free limited := by
  cases hx with
  | @ok a after after' hx hx' h =>
    cases hk a after after' h with
    | ok hk hk' h =>
      exact .ok ((Action.bind_of_ok hx k).trans hk) ((Action.bind_of_ok hx' k).trans hk') h
    | error hk hk' h =>
      exact .error ((Action.bind_of_ok hx k).trans hk) ((Action.bind_of_ok hx' k).trans hk') h
    | cut hk' h =>
      refine .cut ((Action.bind_of_ok hx' k).trans hk') ?_
      rwa [Action.final, Action.bind_of_ok hx k]
  | error hx hx' h => exact .error (Action.bind_of_error hx k) (Action.bind_of_error hx' k) h
  | cut hx' h =>
    refine .cut (Action.bind_of_error hx' k) (h.of_precedes ?_)
    cases hx : x free with
    | ok a after =>
      rw [Action.final_of_ok hx, Action.final, Action.bind_of_ok hx k]
      exact (hroutine a).precedes after
    | error failure after =>
      rw [Action.final_of_error hx, Action.final_of_error (Action.bind_of_error hx k)]
      exact .refl after

theorem Routine.follows {raised : Failure → Prop} {α : Type} {x : Action α}
    (hx : Routine raised x) {free limited : Session}
    (h : InStep room error flushError free limited) :
    Follows room error flushError x free limited := by
  induction hx generalizing free limited with
  | pure a => exact .ok rfl rfl h
  | throw => exact .error rfl rfl h
  | bind _ hk ihx ihk => exact (ihx h).bind hk fun a _ _ => ihk a
  | note notice => exact .ok (note_apply _ _) (note_apply _ _) (h.of_note notice)
  | emit line => exact emit_follows h line
  | probe size table address =>
    refine .ok (probe_apply _ _ _ _) ?_ (h.of_probe _)
    rw [probe_apply, h.probes]
  | countRead =>
    exact .ok (countRead_apply _) (countRead_apply _)
      (h.of_tally fun tally => { tally with pagesRead := tally.pagesRead + 1 })
  | countEmitted =>
    exact .ok (countEmitted_apply _) (countEmitted_apply _)
      (h.of_tally fun tally => { tally with pagesEmitted := tally.pagesEmitted + 1 })
  | countSpan outcome =>
    exact .ok (countSpan_apply _ _) (countSpan_apply _ _)
      (h.of_tally fun tally => tally.count outcome)

/-! ## From the start of a run -/

def Sink.limited (room : Nat) (error : SystemError) (flushError : Option SystemError) : Sink :=
  { room := some room, fullError := error, flushError }

theorem inStep_into (session : Session) :
    InStep room error flushError (session.into {})
      (session.into (.limited room error flushError)) where
  tally := rfl
  probes := rfl
  notices := rfl
  lines := rfl
  rest := rfl
  unlimited := rfl
  left := rfl
  within := Nat.zero_le room
  fullError := rfl
  flushError := rfl
  flushes := rfl

/-- What a limited run of an action has of the free one. `whole` is its result if all
bytes fit, and then the counts are the same too. -/
structure CutShort (room : Nat) (error : SystemError) (whole : Except Failure Unit)
    (x : Action Unit) (free limited : Session) : Prop where
  accepted : (x.final limited).sink.accepted = (x.final free).sink.accepted.extract 0 room
  result : x.result limited =
    if room < (x.final free).sink.accepted.size then .error (.output error) else whole
  tally : (x.final free).sink.accepted.size ≤ room →
    (x.final limited).tally = (x.final free).tally
  probes : (x.final limited).probes.toList <+: (x.final free).probes.toList
  notices : (x.final limited).notices.toList <+: (x.final free).notices.toList

namespace CutShort

variable {x : Action Unit} {free limited : Session} {whole : Except Failure Unit}

theorem of_stopped {after' : Session} (hx' : x limited = .error (.output error) after')
    (h : Stopped room (x.final free) after') : CutShort room error whole x free limited where
  accepted := by rw [Action.final_of_error hx', h.accepted]
  result := by rw [Action.result_of_error hx', if_pos h.beyond]
  tally hle := absurd h.beyond (Nat.not_lt.mpr hle)
  probes := Action.final_of_error hx' ▸ h.probes
  notices := Action.final_of_error hx' ▸ h.notices

theorem of_inStep {after after' : Session} (h : InStep room error flushError after after')
    (hfinal : x.final limited = after') (hresult : x.result limited = whole)
    (hsink : (x.final free).sink = after.sink) (htally : (x.final free).tally = after.tally)
    (hprobes : (x.final free).probes = after.probes)
    (hnotices : after.notices.toList <+: (x.final free).notices.toList) :
    CutShort room error whole x free limited where
  accepted := by rw [hfinal, hsink, h.accepted, extract_of_size_le h.within]
  result := by rw [hresult, hsink, if_neg (Nat.not_lt.mpr h.within)]
  tally _ := by rw [hfinal, htally, h.tally]
  probes := by simp only [hfinal, hprobes, h.probes, List.prefix_refl]
  notices := by
    rw [hfinal, h.notices]
    exact hnotices

theorem of_follows (h : Follows room error flushError x free limited) :
    CutShort room error (x.result free) x free limited := by
  cases h with
  | ok hx hx' h =>
    have hfinal := Action.final_of_ok hx
    have hresult := (Action.result_of_ok hx').trans (Action.result_of_ok hx).symm
    exact of_inStep h (Action.final_of_ok hx') hresult (by rw [hfinal]) (by rw [hfinal])
      (by rw [hfinal]) (hfinal ▸ List.prefix_refl _)
  | error hx hx' h =>
    have hfinal := Action.final_of_error hx
    have hresult := (Action.result_of_error hx').trans (Action.result_of_error hx).symm
    exact of_inStep h (Action.final_of_error hx') hresult (by rw [hfinal]) (by rw [hfinal])
      (by rw [hfinal]) (hfinal ▸ List.prefix_refl _)
  | cut hx' h => exact of_stopped hx' h

end CutShort

/-- The result of a run that ends with a flush, from its result if the flush succeeds. -/
def flushed (flushError : Option SystemError) : Except Failure Unit → Except Failure Unit
  | .ok () =>
    match flushError with
    | some error => .error (.output error)
    | none => .ok ()
  | .error failure => .error failure

def closing (x : Action Unit) (notice : Notice) : Action Unit :=
  x >>= fun _ => flush >>= fun _ => note notice

theorem closing_of_ok {x : Action Unit} {session after : Session} (h : x session = .ok () after)
    (notice : Notice) :
    closing x notice session =
      match after.sink.flushError with
      | some error => .error (.output error) after
      | none => .ok () { after with notices := after.notices.push notice } := by
  rw [closing, Action.bind_of_ok h]
  cases hflush : after.sink.flushError with
  | some error => exact Action.bind_of_error (by rw [flush_apply, hflush]) _
  | none => exact (Action.bind_of_ok (by rw [flush_apply, hflush]) _).trans (note_apply _ _)

theorem closing_of_error {x : Action Unit} {session after : Session} {failure : Failure}
    (h : x session = .error failure after) (notice : Notice) :
    closing x notice session = .error failure after :=
  Action.bind_of_error h _

theorem closing_precedes (x : Action Unit) (session : Session) (notice : Notice) :
    (x.final session).Precedes ((closing x notice).final session) := by
  cases hx : x session with
  | ok a after =>
    rw [Action.final_of_ok hx, Action.final, closing_of_ok hx]
    cases after.sink.flushError with
    | some error => exact .refl after
    | none => exact .of_notice after notice
  | error failure after =>
    rw [Action.final_of_error hx, Action.final_of_error (closing_of_error hx notice)]
    exact .refl after

theorem CutShort.of_closing {x : Action Unit} {free limited : Session}
    (h : Follows room error flushError x free limited) (notice : Notice) :
    CutShort room error (flushed flushError ((closing x notice).result free)) (closing x notice)
      free limited := by
  cases h with
  | @ok _ after after' hx hx' h =>
    have hfree : closing x notice free =
        .ok () { after with notices := after.notices.push notice } := by
      rw [closing_of_ok hx, h.flushes]
    have hlimited := closing_of_ok hx' notice
    have hfinal := Action.final_of_ok hfree
    rw [Action.result_of_ok hfree]
    rw [h.flushError] at hlimited
    cases flushError with
    | none =>
      have hnoted := h.of_note notice
      exact of_inStep hnoted (Action.final_of_ok hlimited) (Action.result_of_ok hlimited)
        (by rw [hfinal]) (by rw [hfinal]) (by rw [hfinal]) (hfinal ▸ List.prefix_refl _)
    | some error =>
      refine of_inStep h (Action.final_of_error hlimited) (Action.result_of_error hlimited)
        ?_ ?_ ?_ ?_ <;> rw [hfinal]
      exact (Precedes.of_notice after notice).notices
  | error hx hx' h =>
    have hfree := closing_of_error hx notice
    have hlimited := closing_of_error hx' notice
    have hfinal := Action.final_of_error hfree
    rw [Action.result_of_error hfree]
    exact of_inStep h (Action.final_of_error hlimited) (Action.result_of_error hlimited)
      (by rw [hfinal]) (by rw [hfinal]) (by rw [hfinal]) (hfinal ▸ List.prefix_refl _)
  | cut hx' h =>
    exact of_stopped (closing_of_error hx' notice) (h.of_precedes (closing_precedes x _ notice))

namespace Survey

def lines (survey : Survey) : Action Unit := do
  emit (.header survey.target survey.label)
  Scan.source survey.size survey.table survey.policy survey.source

theorem perform_eq (survey : Survey) :
    survey.perform = closing survey.lines (.finished survey.target) := by
  simp only [perform, lines, closing, bind_assoc]

theorem lines_routine (survey : Survey) :
    Routine (fun failure => Source.Event.failure failure ∈ survey.source) survey.lines :=
  .bind (.emit _) fun _ => Scan.source_routine _ _ _ fun _ => id

end Survey

/-- A scan or a survey whose output has limited room writes what fits of the bytes that
it writes without a limit. It fails for lack of room if they do not fit, and otherwise
ends as it does without a limit and with the same counts, except that the last flush may
fail. Its reads and its notices are the first ones of the run without a limit. -/
theorem limited_output_cuts_short (room : Nat) (error : SystemError)
    (flushError : Option SystemError) (session : Session) :
    (∀ size table policy source,
      let x := Scan.source size table policy source
      CutShort room error (x.result (session.into {})) x (session.into {})
        (session.into (.limited room error flushError))) ∧
    (∀ files settings target,
      let x := survey files settings target
      CutShort room error (flushed flushError (x.result (session.into {}))) x (session.into {})
        (session.into (.limited room error flushError))) := by
  have hstart : InStep room error flushError (session.into {})
      (session.into (.limited room error flushError)) := inStep_into session
  refine ⟨fun size table policy source => ?_, fun files settings target => ?_⟩
  · have hroutine : Routine (fun _ => True) (Scan.source size table policy source) :=
      Scan.source_routine size table policy fun _ _ => trivial
    exact .of_follows (hroutine.follows hstart)
  · dsimp only
    cases hprepare : Survey.prepare files settings target with
    | ok prepared =>
      have hrun : survey files settings target =
          closing prepared.lines (.finished prepared.target) := by
        rw [survey, hprepare, ← Survey.perform_eq]
        rfl
      rw [hrun]
      exact .of_closing (prepared.lines_routine.follows hstart) _
    | error failure =>
      have hrun : survey files settings target = throw failure := by
        rw [survey, hprepare]
        rfl
      rw [hrun]
      exact .of_follows (.error rfl rfl hstart)

end FrameScan
