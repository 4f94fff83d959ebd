import FrameScan.Text.Blank
import Mathlib.Data.List.DropRight

/-!
# Trimming

A text without the characters of some kind at its front, or at its end: it is what is left
when a run of them is taken away, and has none of them there any more.
-/

namespace FrameScan.Text

section
variable {α : Type} {p : α → Bool} {front rest cs : List α}

theorem takeWhile_append_of_head (hfront : ∀ c ∈ front, p c = true)
    (hrest : ∀ c ∈ rest.head?, p c = false) : (front ++ rest).takeWhile p = front := by
  rw [List.takeWhile_append_of_pos hfront]
  cases rest with
  | nil => simp
  | cons c rest => simp [hrest c rfl]

theorem dropWhile_eq_iff :
    cs.dropWhile p = rest ↔
      ∃ front, cs = front ++ rest ∧ (∀ c ∈ front, p c = true) ∧ ∀ c ∈ rest.head?, p c = false := by
  constructor
  · rintro rfl
    refine ⟨cs.takeWhile p, List.takeWhile_append_dropWhile.symm, ?_, ?_⟩
    · intro c hc
      exact List.mem_takeWhile_imp hc
    · intro c hc
      have hhead := List.head?_dropWhile_not p cs
      rwa [hc] at hhead
  · rintro ⟨front, rfl, hfront, hrest⟩
    rw [List.dropWhile_append_of_pos hfront]
    cases rest with
    | nil => rfl
    | cons c rest => simp [hrest c rfl]

end

variable {cs text : List Char}

theorem trimStart_eq_iff :
    trimStart cs = text ↔ ∃ indent, cs = indent ++ text ∧
      (∀ c ∈ indent, isBlank c = true) ∧ ∀ c ∈ text.head?, isBlank c = false :=
  dropWhile_eq_iff

theorem trimStart_spaces (count : Nat) (h : ∀ c ∈ text.head?, isBlank c = false) :
    trimStart (List.replicate count ' ' ++ text) = text := by
  refine trimStart_eq_iff.mpr ⟨_, rfl, ?_, h⟩
  intro c hc
  rw [List.eq_of_mem_replicate hc]
  decide

theorem trimEnd_eq_iff :
    trimEnd cs = text ↔ ∃ trailing, cs = text ++ trailing ∧
      (∀ c ∈ trailing, isBlank c = true) ∧ ∀ c ∈ text.getLast?, isBlank c = false := by
  rw [trimEnd, List.reverse_eq_iff, dropWhile_eq_iff, List.head?_reverse]
  constructor
  · rintro ⟨front, heq, hfront, htext⟩
    refine ⟨front.reverse, ?_, ?_, htext⟩
    · rw [← List.reverse_reverse cs, heq, List.reverse_append, List.reverse_reverse]
    · intro c hc
      exact hfront c (List.mem_reverse.mp hc)
  · rintro ⟨trailing, rfl, htrailing, htext⟩
    refine ⟨trailing.reverse, List.reverse_append, ?_, htext⟩
    intro c hc
    exact htrailing c (List.mem_reverse.mp hc)

end FrameScan.Text
