import FrameScan.Proofs.Effects

/-!
# Routines

A routine is an action made of basic actions alone; every scan is one. It adds
to its session and takes nothing back: no count decreases, and what was written,
asked and noted before is the beginning of what is there afterwards.
-/

namespace FrameScan

namespace Tally

instance : LE Tally where
  le first second :=
    first.spans ≤ second.spans ∧ first.pagesRead ≤ second.pagesRead ∧
      first.pagesEmitted ≤ second.pagesEmitted ∧ first.truncated ≤ second.truncated ∧
      first.aborted ≤ second.aborted

theorem le_refl (tally : Tally) : tally ≤ tally :=
  ⟨Nat.le_refl _, Nat.le_refl _, Nat.le_refl _, Nat.le_refl _, Nat.le_refl _⟩

theorem le_trans {first second third : Tally} (h : first ≤ second) (h' : second ≤ third) :
    first ≤ third :=
  ⟨Nat.le_trans h.1 h'.1, Nat.le_trans h.2.1 h'.2.1, Nat.le_trans h.2.2.1 h'.2.2.1,
    Nat.le_trans h.2.2.2.1 h'.2.2.2.1, Nat.le_trans h.2.2.2.2 h'.2.2.2.2⟩

theorem le_count (tally : Tally) (outcome : Outcome) : tally ≤ tally.count outcome := by
  cases outcome <;> refine ⟨?_, ?_, ?_, ?_, ?_⟩ <;> simp [count]

end Tally

namespace Session

/-- One session comes about from another by additions. -/
structure Precedes (before after : Session) : Prop where
  tally : before.tally ≤ after.tally
  accepted : ∃ bytes, after.sink.accepted = before.sink.accepted ++ bytes
  probes : before.probes.toList <+: after.probes.toList
  notices : before.notices.toList <+: after.notices.toList

namespace Precedes

theorem refl (session : Session) : session.Precedes session :=
  ⟨session.tally.le_refl, ⟨.empty, by simp⟩, List.prefix_refl _, List.prefix_refl _⟩

theorem trans {first second third : Session} (h : first.Precedes second)
    (h' : second.Precedes third) : first.Precedes third := by
  obtain ⟨bytes, hbytes⟩ := h.accepted
  obtain ⟨bytes', hbytes'⟩ := h'.accepted
  refine ⟨Tally.le_trans h.tally h'.tally, ⟨bytes ++ bytes', ?_⟩, h.probes.trans h'.probes,
    h.notices.trans h'.notices⟩
  rw [hbytes', hbytes, ByteArray.append_assoc]

theorem of_tally (session : Session) {tally : Tally} (h : session.tally ≤ tally) :
    session.Precedes { session with tally } :=
  { refl session with tally := h }

theorem of_probe (session : Session) (probe : Probe) :
    session.Precedes { session with probes := session.probes.push probe } :=
  { refl session with probes := by simp }

theorem of_notice (session : Session) (notice : Notice) :
    session.Precedes { session with notices := session.notices.push notice } :=
  { refl session with notices := by simp }

theorem of_line (session : Session) (line : Line) :
    session.Precedes { session with sink := (session.sink.write line).2 } :=
  { refl session with accepted := ⟨_, Sink.accepted_write session.sink line⟩ }

end Precedes

end Session

open Session

/-- Actions made of basic ones, which raise failures of a certain kind only, besides
those of the output. -/
inductive Routine (raised : Failure → Prop) : {α : Type} → Action α → Prop
  | pure {α : Type} (a : α) : Routine raised (Pure.pure a : Action α)
  | throw {α : Type} {failure : Failure} (h : raised failure) :
      Routine raised (MonadExcept.throw failure : Action α)
  | bind {α β : Type} {x : Action α} {k : α → Action β} (hx : Routine raised x)
      (hk : ∀ a, Routine raised (k a)) : Routine raised (x >>= k)
  | note (notice : Notice) : Routine raised (Session.note notice)
  | emit (line : Line) : Routine raised (Session.emit line)
  | probe (size : PageSize) (table : EntryTable) (address : UInt64) :
      Routine raised (Session.probe size table address)
  | countRead : Routine raised countRead
  | countEmitted : Routine raised countEmitted
  | countSpan (outcome : Outcome) : Routine raised (countSpan outcome)

namespace Routine

variable {raised : Failure → Prop}

theorem precedes {α : Type} {x : Action α} (h : Routine raised x) (session : Session) :
    session.Precedes (x.final session) := by
  induction h generalizing session with
  | pure a => exact .refl session
  | throw => exact .refl session
  | @bind α β x k hx hk ihx ihk =>
    cases h : x session with
    | ok a after =>
      have hfirst := ihx session
      rw [Action.final_of_ok h] at hfirst
      have hbind : (x >>= k).final session = (k a).final after := by
        simp only [Action.final, Action.bind_of_ok h]
      rw [hbind]
      exact hfirst.trans (ihk a after)
    | error failure after =>
      have hfirst := ihx session
      rw [Action.final_of_error h] at hfirst
      rw [Action.final_of_error (Action.bind_of_error h k)]
      exact hfirst
  | note notice =>
    rw [Action.final_of_ok (note_apply session notice)]
    exact .of_notice session notice
  | emit line =>
    cases h : (session.sink.write line).1 with
    | none =>
      rw [Action.final_of_ok (emit_of_taken session h)]
      exact .of_line session line
    | some error =>
      rw [Action.final_of_error (emit_of_refused session h)]
      exact .of_line session line
  | probe size table address =>
    rw [Action.final_of_ok (probe_apply session size table address)]
    exact .of_probe session _
  | countRead =>
    rw [Action.final_of_ok (countRead_apply session)]
    exact .of_tally session ⟨Nat.le_refl _, Nat.le_succ _, Nat.le_refl _, Nat.le_refl _,
      Nat.le_refl _⟩
  | countEmitted =>
    rw [Action.final_of_ok (countEmitted_apply session)]
    exact .of_tally session ⟨Nat.le_refl _, Nat.le_refl _, Nat.le_succ _, Nat.le_refl _,
      Nat.le_refl _⟩
  | countSpan outcome =>
    rw [Action.final_of_ok (countSpan_apply session outcome)]
    exact .of_tally session (Tally.le_count _ _)

end Routine

namespace Scan

variable {raised : Failure → Prop} (size : PageSize) (table : EntryTable) (policy : Policy)

theorem report_routine (address : UInt64) (entry : Entry) :
    Routine raised (report policy address entry) := by
  unfold report
  split
  · exact .pure ()
  · next content _ =>
    refine .bind ?_ fun _ => .bind (.emit _) fun _ => .countEmitted
    cases content with
    | frame => exact .pure ()
    | flags flags => exact .note _

theorem page_routine (address : UInt64) : Routine raised (page size table policy address) := by
  unfold page
  refine .bind (.probe size table address) fun fetched => ?_
  match fetched with
  | .ok (.entry entry) =>
    exact .bind .countRead fun _ => .bind (report_routine policy address entry) fun _ => .pure _
  | .ok (.short length) => exact .bind (.note _) fun _ => .pure _
  | .error failure => exact .bind (.note _) fun _ => .pure _

theorem pages_routine (stop address : UInt64) :
    Routine raised (pages size table policy stop address) := by
  induction address using pages.induct size stop with
  | case1 address inside ih =>
    rw [pages, dif_pos inside]
    refine .bind (page_routine size table policy address) fun ended => ?_
    cases ended with
    | some outcome => exact .pure outcome
    | none =>
      by_cases onward : size.HasNext address
      · simpa only [dif_pos onward] using ih onward
      · simpa only [dif_neg onward] using .pure _
  | case2 address outside =>
    rw [pages, dif_neg outside]
    exact .pure _

theorem span_routine (s : Span) : Routine raised (span size table policy s) :=
  .bind (pages_routine size table policy s.stop s.start) fun _ =>
    .bind (.note _) fun _ => .bind (.countSpan _) fun _ => .pure _

theorem source_routine {events : Source}
    (h : ∀ failure, Source.Event.failure failure ∈ events → raised failure) :
    Routine raised (source size table policy events) := by
  induction events with
  | nil => exact .pure ()
  | cons event rest ih =>
    have hrest := ih fun failure hmem => h failure (List.mem_cons_of_mem _ hmem)
    cases event with
    | span s =>
      exact .bind (.emit _) fun _ => .bind (span_routine size table policy s) fun _ => hrest
    | failure failure => exact .throw (h failure List.mem_cons_self)
    | notice notice => exact .bind (.note _) fun _ => hrest

end Scan

end FrameScan
