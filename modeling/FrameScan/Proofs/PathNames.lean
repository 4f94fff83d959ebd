import FrameScan.Proofs.AddressForm
import FrameScan.Proofs.LineFeeds
import FrameScan.Proofs.Trimming

/-!
# Path names of mappings

Two ways to find the path name in the line of a mapping: after its fifth space, or after its
fifth word. They come to the same where the fields are apart by one space each, as they are
listed. `mapping_label_iff_words` says for which lines else they do.
-/

namespace FrameScan

namespace Text

/-- The words of a text are what stands between its white space. -/
def words (text : List Char) : List (List Char) :=
  (text.splitOnP isBlank).filter (!·.isEmpty)

def afterWord (text : List Char) : List Char :=
  (trimStart text).dropWhile (!isBlank ·)

/-- What follows the first words of a text, without the white space before it. -/
def afterWords : Nat → List Char → List Char
  | 0, text => trimStart text
  | n + 1, text => afterWords n (afterWord text)

variable {text : List Char}

theorem words_append_cons {c : Char} (hc : isBlank c = true) (before after : List Char) :
    words (before ++ c :: after) = words before ++ words after := by
  rw [words, List.splitOnP_append_cons before after hc, List.filter_append, ← words, ← words]

theorem words_blanks_append {blanks : List Char} (h : ∀ c ∈ blanks, isBlank c = true)
    (text : List Char) : words (blanks ++ text) = words text := by
  induction blanks with
  | nil => rfl
  | cons c blanks ih =>
    have hrest := ih fun c hc => h c (List.mem_cons_of_mem _ hc)
    have hfirst := words_append_cons (h c List.mem_cons_self) [] (blanks ++ text)
    exact hfirst.trans hrest

theorem words_of_solid {word : List Char} (hne : word ≠ [])
    (h : ∀ c ∈ word, isBlank c = false) : words word = [word] := by
  rw [words, List.splitOnP_eq_singleton h]
  simp [hne]

/-- A text that begins with a word, perhaps after white space, and goes on with a rest. -/
structure Begins (text word rest : List Char) : Prop where
  trimStart_eq : trimStart text = word ++ rest
  word_ne : word ≠ []
  word_solid : ∀ c ∈ word, isBlank c = false
  rest_head : ∀ c ∈ rest.head?, isBlank c = true

theorem exists_begins (h : trimStart text ≠ []) : ∃ word rest, Begins text word rest := by
  obtain ⟨word, hsplit, hword, hrest⟩ :=
    dropWhile_eq_iff.mp (Eq.refl ((trimStart text).dropWhile (!isBlank ·)))
  obtain ⟨-, -, -, hhead⟩ := trimStart_eq_iff.mp (Eq.refl (trimStart text))
  refine ⟨word, _, hsplit, ?_, ?_, ?_⟩
  · -- Trimmed text has no white space at its front, so a word begins there.
    rintro rfl
    obtain ⟨c, more, hc⟩ := List.exists_cons_of_ne_nil h
    rw [List.nil_append] at hsplit
    have hblank := hrest c (by rw [← hsplit, hc]; rfl)
    have hsolid := hhead c (by rw [hc]; rfl)
    simp [hsolid] at hblank
  · intro c hc
    simpa using hword c hc
  · intro c hc
    simpa using hrest c hc

namespace Begins

variable {word rest : List Char} (begins : Begins text word rest)

include begins

theorem words_eq : words text = word :: words rest := by
  obtain ⟨blanks, rfl, hblanks, -⟩ := trimStart_eq_iff.mp begins.trimStart_eq
  have hword := words_of_solid begins.word_ne begins.word_solid
  rw [words_blanks_append hblanks]
  cases rest with
  | nil => rw [List.append_nil, hword]; rfl
  | cons c more =>
    have hc := begins.rest_head c rfl
    have hmore : words (c :: more) = words more := words_append_cons hc [] more
    rw [words_append_cons hc, hword, hmore]
    rfl

theorem afterWord_eq : afterWord text = rest := by
  rw [afterWord, begins.trimStart_eq, dropWhile_eq_iff]
  refine ⟨word, rfl, ?_, ?_⟩
  · intro c hc
    simp [begins.word_solid c hc]
  · intro c hc
    simp [begins.rest_head c hc]

theorem append_cons {c : Char} (hc : isBlank c = true) (more : List Char) :
    Begins (text ++ c :: more) word (rest ++ c :: more) where
  trimStart_eq := by
    obtain ⟨blanks, htext, hblanks, hhead⟩ := trimStart_eq_iff.mp begins.trimStart_eq
    refine trimStart_eq_iff.mpr ⟨blanks, ?_, hblanks, ?_⟩
    · rw [htext]
      simp
    · obtain ⟨first, others, hword⟩ := List.exists_cons_of_ne_nil begins.word_ne
      rw [hword] at hhead ⊢
      exact hhead
  word_ne := begins.word_ne
  word_solid := begins.word_solid
  rest_head := by
    have hrest := begins.rest_head
    cases rest with
    | nil =>
      rintro d ⟨⟩
      exact hc
    | cons => exact hrest

end Begins

theorem words_eq_nil_iff : words text = [] ↔ trimStart text = [] := by
  constructor
  · intro h
    by_contra hne
    obtain ⟨word, rest, begins⟩ := exists_begins hne
    rw [begins.words_eq] at h
    cases h
  · intro h
    obtain ⟨blanks, rfl, hblanks, -⟩ := trimStart_eq_iff.mp h
    exact words_blanks_append hblanks []

theorem words_afterWord (text : List Char) : words (afterWord text) = (words text).tail := by
  by_cases h : trimStart text = []
  · rw [words_eq_nil_iff.mpr h, afterWord, h]
    rfl
  · obtain ⟨word, rest, begins⟩ := exists_begins h
    rw [begins.words_eq, begins.afterWord_eq, List.tail_cons]

theorem words_trimStart (text : List Char) : words (trimStart text) = words text := by
  obtain ⟨blanks, htext, hblanks, -⟩ := trimStart_eq_iff.mp (Eq.refl (trimStart text))
  rw [← words_blanks_append hblanks, ← htext]

theorem words_afterWords (n : Nat) (text : List Char) :
    words (afterWords n text) = (words text).drop n := by
  induction n generalizing text with
  | zero => exact words_trimStart text
  | succ n ih => rw [afterWords, ih, words_afterWord, List.drop_tail]

theorem trimStart_afterWords (n : Nat) (text : List Char) :
    trimStart (afterWords n text) = afterWords n text := by
  induction n generalizing text with
  | zero => exact List.dropWhile_idempotent _ _
  | succ n ih => exact ih _

theorem afterWords_append_cons {n : Nat} {c : Char} (hc : isBlank c = true)
    (h : (words text).length = n) (more : List Char) :
    afterWords n (text ++ c :: more) = trimStart more := by
  induction n generalizing text with
  | zero =>
    have hnil := words_eq_nil_iff.mp (List.eq_nil_of_length_eq_zero h)
    obtain ⟨blanks, rfl, hblanks, -⟩ := trimStart_eq_iff.mp hnil
    rw [afterWords, List.append_nil, trimStart, List.dropWhile_append_of_pos hblanks,
      List.dropWhile_cons_of_pos hc, trimStart]
  | succ n ih =>
    have hne : trimStart text ≠ [] := by
      rw [ne_eq, ← words_eq_nil_iff]
      rintro hnil
      rw [hnil] at h
      cases h
    obtain ⟨word, rest, begins⟩ := exists_begins hne
    have hrest : (words rest).length = n := by
      rw [begins.words_eq, List.length_cons] at h
      exact Nat.succ.inj h
    rw [afterWords, (begins.append_cons hc more).afterWord_eq]
    exact ih hrest

/-- What follows some white space is what follows the first words, if these are the words before
it. Otherwise there are fewer of them, and none comes after the white space. -/
theorem trimStart_eq_afterWords_iff {n : Nat} {c : Char} (hc : isBlank c = true)
    (more : List Char) :
    trimStart more = afterWords n (text ++ c :: more) ↔
      (words text).length = n ∨ (words text).length < n ∧ words more = [] := by
  have hdrop := words_afterWords n (text ++ c :: more)
  rw [words_append_cons hc] at hdrop
  constructor
  · intro h
    have hlength := congrArg (fun found => (words found).length) h
    simp only [words_trimStart, hdrop, List.length_drop, List.length_append] at hlength
    rw [← List.length_eq_zero_iff]
    omega
  · rintro (h | ⟨h, hnil⟩)
    · exact (afterWords_append_cons hc h more).symm
    · rw [hnil, List.append_nil, List.drop_eq_nil_of_le (Nat.le_of_lt h), words_eq_nil_iff,
        trimStart_afterWords] at hdrop
      rw [hdrop, words_eq_nil_iff.mp hnil]

theorem afterWords_eq_nil_iff {n : Nat} : afterWords n text = [] ↔ (words text).length ≤ n := by
  rw [← trimStart_afterWords, ← words_eq_nil_iff, words_afterWords, List.drop_eq_nil_iff]

end Text

namespace Source.Maps

open AddressRange (Form)

theorem dropWhile_unspaced {before : List Char} (h : ' ' ∉ before) (after : List Char) :
    (before ++ ' ' :: after).dropWhile (· != ' ') = ' ' :: after := by
  refine Text.dropWhile_eq_iff.mpr ⟨before, rfl, ?_, ?_⟩
  · intro c hc
    rw [bne_iff_ne]
    rintro rfl
    exact h hc
  · rintro c ⟨⟩
    rfl

theorem exists_space {n : Nat} {text : List Char} (h : n < text.count ' ') :
    ∃ before after, text = before ++ ' ' :: after ∧ before.count ' ' = n := by
  induction n generalizing text with
  | zero =>
    obtain ⟨first, others, rfl, hfirst⟩ := List.eq_append_cons_of_mem (List.count_pos_iff.mp h)
    exact ⟨first, others, rfl, List.count_eq_zero.mpr hfirst⟩
  | succ n ih =>
    obtain ⟨first, others, rfl, hfirst⟩ :=
      List.eq_append_cons_of_mem (List.count_pos_iff.mp (Nat.zero_lt_of_lt h))
    rw [List.count_append, List.count_eq_zero.mpr hfirst, List.count_cons_self] at h
    have hothers : n < others.count ' ' := by omega
    obtain ⟨before, after, rfl, hbefore⟩ := ih hothers
    refine ⟨first ++ ' ' :: before, after, ?_, ?_⟩
    · simp
    · rw [List.count_append, List.count_eq_zero.mpr hfirst, List.count_cons_self, hbefore]
      omega

theorem afterSpaces_of_count {n : Nat} {before : List Char} (h : before.count ' ' = n)
    (after : List Char) : afterSpaces (n + 1) (before ++ ' ' :: after) = some after := by
  induction n generalizing before with
  | zero =>
    rw [afterSpaces, dropWhile_unspaced (List.count_eq_zero.mp h)]
    rfl
  | succ n ih =>
    have hmem : ' ' ∈ before := List.count_pos_iff.mp (by omega)
    obtain ⟨first, others, rfl, hfirst⟩ := List.eq_append_cons_of_mem hmem
    rw [List.count_append, List.count_eq_zero.mpr hfirst, List.count_cons_self] at h
    rw [List.append_assoc, List.cons_append, afterSpaces, dropWhile_unspaced hfirst]
    exact ih (by omega)

theorem afterSpaces_eq_none {n : Nat} {text : List Char} (h : text.count ' ' < n) :
    afterSpaces n text = none := by
  induction n generalizing text with
  | zero => exact absurd h (Nat.not_lt_zero _)
  | succ n ih =>
    rw [afterSpaces]
    by_cases hmem : ' ' ∈ text
    · obtain ⟨first, others, rfl, hfirst⟩ := List.eq_append_cons_of_mem hmem
      rw [List.count_append, List.count_eq_zero.mpr hfirst, List.count_cons_self] at h
      rw [dropWhile_unspaced hfirst]
      exact ih (by omega)
    · have hnil : text.dropWhile (· != ' ') = [] := by
        rw [List.dropWhile_eq_nil_iff]
        intro c hc
        rw [bne_iff_ne]
        rintro rfl
        exact hmem hc
      rw [hnil]

theorem toList_label_of_count {before : List Char} (h : before.count ' ' = 4)
    (after : List Char) : (label (before ++ ' ' :: after)).toList = Text.trimStart after := by
  rw [label, afterSpaces_of_count h, String.toList_ofList]

theorem label_of_count_lt {line : List Char} (h : line.count ' ' < 5) : label line = "" := by
  rw [label, afterSpaces_eq_none h]

/-- The label of a mapping begins after the fifth space of its line, and after the white space
there. So it is what follows the fifth word if five words come before this space, or if there are
fewer and none after it. A line with fewer spaces has an empty label, and that is what follows
the fifth word if there are no more than five words. -/
theorem mapping_label_iff_words {size : PageSize} {line : String} {s : Span}
    (h : event size (.ok line) = .span s) :
    (5 ≤ line.toList.count ' ' → ∃ before after,
      line.toList = before ++ ' ' :: after ∧ before.count ' ' = 4 ∧
      s.label.toList = Text.trimStart after ∧
      (s.label.toList = Text.afterWords 5 line.toList ↔
        (Text.words before).length = 5 ∨
          (Text.words before).length < 5 ∧ Text.words after = [])) ∧
    (line.toList.count ' ' < 5 →
      s.label = "" ∧
      (s.label.toList = Text.afterWords 5 line.toList ↔
        (Text.words line.toList).length ≤ 5)) := by
  obtain ⟨range, -, hs⟩ := event_eq_span_iff.mp h
  have hlabel : s.label = label line.toList := by rw [hs, label_ofBounds]
  constructor
  · intro hspaces
    obtain ⟨before, after, hline, hcount⟩ := exists_space (n := 4) hspaces
    have hafter : s.label.toList = Text.trimStart after := by
      rw [hlabel, hline, toList_label_of_count hcount]
    refine ⟨before, after, hline, hcount, hafter, ?_⟩
    rw [hafter, hline]
    exact Text.trimStart_eq_afterWords_iff (by decide) after
  · intro hcount
    have hempty : s.label = "" := hlabel.trans (label_of_count_lt hcount)
    refine ⟨hempty, ?_⟩
    rw [hempty, eq_comm, ← Text.afterWords_eq_nil_iff]
    rfl

/-- A mapping as it is listed has the label that follows its fifth word. One with a tab among its
fields has not, since there are no more than four spaces in its line. -/
theorem listed_labels_compared :
    let size : PageSize := ⟨0x1000, 12, rfl⟩
    let listed := "1000-2000 r-xp 00000000 fd:01 1048602      /tmp/my file (deleted)"
    let tabbed := "1000-2000 r--p\t0 00:00 0 /bin/x"
    let s : Span := ⟨0x1000, 0x2000, "/tmp/my file (deleted)", by decide⟩
    let t : Span := ⟨0x1000, 0x2000, "", by decide⟩
    event size (.ok listed) = .span s ∧ s.label.toList = Text.afterWords 5 listed.toList ∧
      event size (.ok tabbed) = .span t ∧ t.label.toList ≠ Text.afterWords 5 tabbed.toList := by
  intro size listed tabbed s t
  have hs : event size (.ok listed) = .span s := by decide +kernel
  have ht : event size (.ok tabbed) = .span t := by decide +kernel
  obtain ⟨before, after, hline, hcount, -, hlisted⟩ :=
    (mapping_label_iff_words hs).1 (by decide +kernel)
  obtain ⟨-, htabbed⟩ := (mapping_label_iff_words ht).2 (by decide +kernel)
  have hspace := afterSpaces_of_count hcount after
  have hfifth : afterSpaces 5 listed.toList = some "     /tmp/my file (deleted)".toList := by
    decide +kernel
  rw [← hline, hfifth, Option.some.injEq] at hspace
  have hafter : (Text.words after).length = 3 := by
    rw [← hspace]
    decide +kernel
  have hwords : (Text.words before).length + (Text.words after).length = 8 := by
    rw [← List.length_append, ← Text.words_append_cons (c := ' ') (by decide), ← hline]
    decide +kernel
  exact ⟨hs, hlisted.mpr (.inl (by omega)), ht, mt htabbed.mp (by decide +kernel)⟩

/-- With two spaces after its addresses a mapping has its inode in the label. -/
theorem inode_in_label :
    let size : PageSize := ⟨0x1000, 12, rfl⟩
    let line := "1000-2000  r--p 0 00:00 0 /bin/x"
    let s : Span := ⟨0x1000, 0x2000, "0 /bin/x", by decide⟩
    event size (.ok line) = .span s ∧
      Text.words line.toList =
        ["1000-2000", "r--p", "0", "00:00", "0", "/bin/x"].map String.toList ∧
      Text.afterWords 5 line.toList = "/bin/x".toList ∧
      s.label.toList ≠ Text.afterWords 5 line.toList := by
  decide +kernel

end Source.Maps

end FrameScan
