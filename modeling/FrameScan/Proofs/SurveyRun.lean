import FrameScan.Proofs.LimitedOutput
import FrameScan.Proofs.Trace

/-!
# Runs of surveys

What a prepared survey does with a sink that has taken nothing yet, whatever its room:
`lines_fresh` says how the lines of the survey end, and `perform_fresh` what becomes of the
whole survey, its result, its output and its counts.
-/

namespace FrameScan

open Session

def upTo (room : Option Nat) (bytes : ByteArray) : ByteArray :=
  match room with
  | none => bytes
  | some limit => bytes.extract 0 limit

def Overflows (room : Option Nat) (bytes : ByteArray) : Prop :=
  ∃ limit, room = some limit ∧ limit < bytes.size

instance (room : Option Nat) (bytes : ByteArray) : Decidable (Overflows room bytes) :=
  match room with
  | none => isFalse fun ⟨_, hroom, _⟩ => nomatch hroom
  | some limit => decidable_of_iff (limit < bytes.size) (by simp [Overflows])

theorem not_overflows_none (bytes : ByteArray) : ¬ Overflows none bytes := by
  rintro ⟨limit, hroom, -⟩
  cases hroom

theorem upTo_of_not_overflows {room : Option Nat} {bytes : ByteArray}
    (h : ¬ Overflows room bytes) : upTo room bytes = bytes := by
  cases room with
  | none => rfl
  | some limit =>
    have hle : bytes.size ≤ limit := Nat.le_of_not_lt fun hlt => h ⟨limit, rfl, hlt⟩
    exact extract_of_size_le hle

def Sink.fresh (room : Option Nat) (fullError : SystemError)
    (flushError : Option SystemError) : Sink :=
  { room, fullError, flushError }

section Closing

variable (x : Action Unit) (notice : Notice) (session : Session)

theorem closing_result :
    (closing x notice).result session =
      flushed (x.final session).sink.flushError (x.result session) := by
  cases hx : x session with
  | ok a after =>
    rw [Action.result_of_ok hx, Action.final_of_ok hx, Action.result, closing_of_ok hx]
    cases hflush : after.sink.flushError <;> simp [flushed]
  | error failure after =>
    rw [Action.result_of_error hx, Action.result_of_error (closing_of_error hx notice)]
    rfl

theorem closing_keeps :
    ((closing x notice).final session).sink = (x.final session).sink ∧
      ((closing x notice).final session).tally = (x.final session).tally := by
  cases hx : x session with
  | ok a after =>
    rw [Action.final_of_ok hx, Action.final, closing_of_ok hx]
    cases after.sink.flushError <;> exact ⟨rfl, rfl⟩
  | error failure after =>
    rw [Action.final_of_error hx, Action.final_of_error (closing_of_error hx notice)]
    exact ⟨rfl, rfl⟩

end Closing

theorem Follows.cut_or_inStep {room : Nat} {error : SystemError}
    {flushError : Option SystemError} {α : Type} {x : Action α} {free limited : Session}
    (h : Follows room error flushError x free limited) :
    (x.result limited = .error (.output error) ∧
      Stopped room (x.final free) (x.final limited)) ∨
    (x.result limited = x.result free ∧
      InStep room error flushError (x.final free) (x.final limited)) := by
  cases h with
  | ok hx hx' h =>
    rw [Action.result_of_ok hx, Action.result_of_ok hx', Action.final_of_ok hx,
      Action.final_of_ok hx']
    exact .inr ⟨rfl, h⟩
  | error hx hx' h =>
    rw [Action.result_of_error hx, Action.result_of_error hx', Action.final_of_error hx,
      Action.final_of_error hx']
    exact .inr ⟨rfl, h⟩
  | cut hx' h =>
    rw [Action.result_of_error hx', Action.final_of_error hx']
    exact .inl ⟨rfl, h⟩

namespace Survey

variable (survey : Survey)

/-- What a survey adds to a session with room for all of it, after a number of reads. -/
def trace (earlier : Nat) : Trace :=
  { lines := [.header survey.target survey.label] } ++
    Scan.sourceTrace survey.size survey.table survey.policy earlier survey.source

/-- The bytes that a survey writes where there is room for all of them. -/
def written (earlier : Nat) : ByteArray :=
  Line.stream (survey.trace earlier).lines

def ending : Except Failure Unit :=
  match Scan.firstFailure survey.source with
  | none => .ok ()
  | some failure => .error failure

theorem lines_of_unlimited {session : Session} (h : session.sink.room = none) :
    survey.lines.result session = survey.ending ∧
      survey.lines.final session = session.extend (survey.trace session.probes.size) := by
  let header : Trace := { lines := [.header survey.target survey.label] }
  have hheader : emit (.header survey.target survey.label) session =
      .ok () (session.extend header) := emit_of_unlimited h _
  have hroom : (session.extend header).sink.room = none := h
  have hsource :=
    Scan.source_of_unlimited survey.size survey.table survey.policy hroom survey.source
  have hlines : survey.lines session =
      Scan.source survey.size survey.table survey.policy survey.source
        (session.extend header) := Action.bind_of_ok hheader _
  rw [extend_extend, size_probes_extend, ← hlines] at hsource
  rw [ending]
  cases hfailure : Scan.firstFailure survey.source with
  | none =>
    rw [hfailure] at hsource
    exact ⟨Action.result_of_ok hsource, Action.final_of_ok hsource⟩
  | some failure =>
    rw [hfailure] at hsource
    exact ⟨Action.result_of_error hsource, Action.final_of_error hsource⟩

theorem sink_perform_of_unlimited {session : Session} (h : session.sink.room = none) :
    (survey.perform.final session).sink =
      session.sink.push (survey.trace session.probes.size).lines := by
  rw [perform_eq, (closing_keeps survey.lines (.finished survey.target) session).1,
    (survey.lines_of_unlimited h).2]
  rfl

variable (room : Option Nat) (error : SystemError) (flushError : Option SystemError)

theorem lines_fresh (session : Session) :
    let start := session.into (.fresh room error flushError)
    let written := survey.written session.probes.size
    let after := survey.lines.final start
    (Overflows room written ∧ survey.lines.result start = .error (.output error) ∧
      after.sink.accepted = upTo room written) ∨
    (¬ Overflows room written ∧ survey.lines.result start = survey.ending ∧
      after.sink.accepted = written ∧ after.sink.flushError = flushError ∧
      after.tally = session.tally + (survey.trace session.probes.size).tally) := by
  intro start written after
  have haccepted (sink : Sink) (hroom : sink.room = none) (hempty : sink.accepted = .empty) :
      ((session.into sink).extend (survey.trace session.probes.size)).sink.accepted =
        written := by
    have hpush := Sink.accepted_push hroom (survey.trace session.probes.size).lines
    rw [hempty, ByteArray.empty_append] at hpush
    exact hpush
  cases room with
  | none =>
    have hafter : after = start.extend (survey.trace session.probes.size) :=
      (survey.lines_of_unlimited rfl).2
    rw [hafter]
    exact .inr ⟨not_overflows_none written, (survey.lines_of_unlimited rfl).1,
      haccepted (.fresh none error flushError) rfl rfl, rfl, rfl⟩
  | some limit =>
    -- The run without a limit is known; the limited one follows it as far as there is room.
    let free := (session.into {}).extend (survey.trace session.probes.size)
    have hresult : survey.lines.result (session.into {}) = survey.ending :=
      (survey.lines_of_unlimited rfl).1
    have hfinal : survey.lines.final (session.into {}) = free :=
      (survey.lines_of_unlimited rfl).2
    have hwhole : free.sink.accepted = written := haccepted {} rfl rfl
    have hstart : InStep limit error flushError (session.into {}) start := inStep_into session
    have hfollows := survey.lines_routine.follows hstart
    rcases hfollows.cut_or_inStep with ⟨hcut, hstopped⟩ | ⟨hsame, hinStep⟩
    · rw [hfinal] at hstopped
      have hbeyond := hstopped.beyond
      have hpart := hstopped.accepted
      rw [hwhole] at hbeyond hpart
      exact .inl ⟨⟨limit, rfl, hbeyond⟩, hcut, hpart⟩
    · rw [hfinal] at hinStep
      have hwithin := hinStep.within
      rw [hwhole] at hwithin
      have hfits : ¬ Overflows (some limit) written := by
        rintro ⟨limit', hroom, hlt⟩
        cases hroom
        omega
      exact .inr ⟨hfits, hsame.trans hresult, hinStep.accepted.trans hwhole,
        hinStep.flushError, hinStep.tally⟩

/-- A survey fails for lack of room if its lines do not fit the sink. If they fit it fails as
its source does, or when the sink cannot be flushed. The sink has taken what there was room
for, and the counts of a survey that succeeds are those of its lines. -/
theorem perform_fresh (session : Session) :
    let start := session.into (.fresh room error flushError)
    let written := survey.written session.probes.size
    survey.perform.result start =
        (if Overflows room written then .error (.output error)
        else flushed flushError survey.ending) ∧
      (survey.perform.final start).sink.accepted = upTo room written ∧
      (survey.perform.result start = .ok () →
        (survey.perform.final start).tally =
          session.tally + (survey.trace session.probes.size).tally) := by
  intro start written
  obtain ⟨hsink, htally⟩ := closing_keeps survey.lines (.finished survey.target) start
  rw [perform_eq, hsink, htally, closing_result]
  rcases survey.lines_fresh room error flushError session with
    ⟨hover, hresult, haccepted⟩ | ⟨hfits, hresult, haccepted, hflush, hcounts⟩
  · rw [if_pos hover]
    refine ⟨by rw [hresult]; rfl, haccepted, fun hok => ?_⟩
    rw [hresult] at hok
    cases hok
  · rw [if_neg hfits, upTo_of_not_overflows hfits]
    exact ⟨by rw [hresult, hflush], haccepted, fun _ => hcounts⟩

end Survey

end FrameScan
