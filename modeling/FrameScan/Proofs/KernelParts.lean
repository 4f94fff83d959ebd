import FrameScan.Source.Iomem
import FrameScan.Proofs.AddressForm
import FrameScan.Proofs.Alignment
import FrameScan.Proofs.ListedLines

/-!
# Parts of the kernel image

Which lines of the listing of physical memory stand for parts of the kernel image: the indented
ones with a name that begins with `Kernel`, if they begin with an address range. The span of
such a part goes from the page of its first address to the end of the page of its last one.
`kernel_parts_selected` says this of each line, and of whole listings of nested regions.
-/

namespace FrameScan.Source.Iomem

open AddressRange (Form)

def separator : List Char := [' ', ':', ' ']

/-- The first separator of a text is between two parts of it. -/
structure Separated (text before after : List Char) : Prop where
  text_eq : text = before ++ (separator ++ after)
  first : ∀ earlier, earlier ++ separator <+: text → before.length ≤ earlier.length

theorem afterColon_eq_some_iff {text after : List Char} :
    afterColon text = some after ↔ ∃ before, Separated text before after := by
  -- The induction is on the text up to the separator, which is the first one of what follows a
  -- character if it is not at this character.
  induction text with
  | nil =>
    constructor
    · intro h
      cases h
    · rintro ⟨before, htext, -⟩
      simp [separator] at htext
  | cons c rest ih =>
    rw [afterColon]
    by_cases hprefix : separator <+: c :: rest
    · have hhere : [' ', ':', ' '].isPrefixOf (c :: rest) = true :=
        List.isPrefixOf_iff_prefix.mpr hprefix
      rw [if_pos hhere]
      obtain ⟨found, hfound⟩ := hprefix
      constructor
      · intro h
        refine ⟨[], ?_, fun _ _ => Nat.zero_le _⟩
        cases hfound
        cases h
        rfl
      · rintro ⟨before, htext, hfirst⟩
        have hnil : before = [] := by
          have hle := hfirst [] ⟨found, hfound⟩
          exact List.eq_nil_of_length_eq_zero (Nat.le_zero.mp hle)
        subst hnil
        cases htext
        rfl
    · have hlater : ¬ [' ', ':', ' '].isPrefixOf (c :: rest) = true := fun h =>
        hprefix (List.isPrefixOf_iff_prefix.mp h)
      rw [if_neg hlater, ih]
      constructor
      · rintro ⟨before, rfl, hfirst⟩
        refine ⟨c :: before, rfl, ?_⟩
        intro earlier hearlier
        cases earlier with
        | nil => exact absurd hearlier hprefix
        | cons d earlier =>
          have htail := (List.cons_prefix_cons.mp hearlier).2
          exact Nat.succ_le_succ (hfirst earlier htail)
      · rintro ⟨before, htext, hfirst⟩
        cases before with
        | nil => exact absurd ⟨after, htext.symm⟩ hprefix
        | cons d before =>
          obtain ⟨rfl, hrest⟩ := List.cons.inj htext
          refine ⟨before, hrest, ?_⟩
          intro earlier hearlier
          have hcons : (c :: earlier) ++ separator <+: c :: rest :=
            List.cons_prefix_cons.mpr ⟨rfl, hearlier⟩
          exact Nat.le_of_succ_le_succ (hfirst (c :: earlier) hcons)

/-- An indented line, its text without the indentation, and the name in it, which begins with
`Kernel`. The name is what follows the first separator, without the white space at its end. -/
inductive Named : List Char → List Char → String → Prop
  | intro {indent text before name trailing : List Char} (indented : indent ≠ [])
      (indent_blank : ∀ c ∈ indent, Text.isBlank c = true)
      (text_head : ∀ c ∈ text.head?, Text.isBlank c = false)
      (separated : Separated text before (name ++ trailing))
      (trailing_blank : ∀ c ∈ trailing, Text.isBlank c = true)
      (name_last : ∀ c ∈ name.getLast?, Text.isBlank c = false)
      (kernel : "Kernel".toList <+: name) :
      Named (indent ++ text) text (String.ofList name)

theorem kernelLabel?_eq_some_iff {text : List Char} {label : String} :
    kernelLabel? text = some label ↔
      ∃ after, afterColon text = some after ∧ "Kernel".toList <+: Text.trimEnd after ∧
        String.ofList (Text.trimEnd after) = label := by
  rw [kernelLabel?]
  generalize "Kernel".toList = kernel
  cases afterColon text with
  | none => simp
  | some after => simp

theorem isIndented_of_head {text : List Char} (h : ∀ c ∈ text.head?, Text.isBlank c = false) :
    isIndented text = false := by
  cases text with
  | nil => rfl
  | cons c rest => exact h c rfl

theorem named_iff {line text : List Char} {label : String} :
    Named line text label ↔
      isIndented line = true ∧ Text.trimStart line = text ∧ kernelLabel? text = some label := by
  rw [kernelLabel?_eq_some_iff]
  constructor
  · intro h
    cases h with
    | @intro indent _ before name trailing hne hindent hhead hsep htrailing hlast hkernel =>
      have hname : Text.trimEnd (name ++ trailing) = name :=
        Text.trimEnd_eq_iff.mpr ⟨trailing, rfl, htrailing, hlast⟩
      refine ⟨?_, Text.trimStart_eq_iff.mpr ⟨indent, rfl, hindent, hhead⟩, name ++ trailing,
        afterColon_eq_some_iff.mpr ⟨before, hsep⟩, ?_, ?_⟩
      · obtain ⟨c, rest, rfl⟩ := List.exists_cons_of_ne_nil hne
        exact hindent c List.mem_cons_self
      · rw [hname]
        exact hkernel
      · rw [hname]
  · rintro ⟨hindented, htext, after, hafter, hkernel, rfl⟩
    obtain ⟨indent, rfl, hindent, hhead⟩ := Text.trimStart_eq_iff.mp htext
    obtain ⟨before, hsep⟩ := afterColon_eq_some_iff.mp hafter
    obtain ⟨trailing, hname, htrailing, hlast⟩ :=
      Text.trimEnd_eq_iff.mp (Eq.refl (Text.trimEnd after))
    rw [hname] at hsep
    refine .intro ?_ hindent hhead hsep htrailing hlast hkernel
    -- Without an indentation the line begins as its text does.
    rintro rfl
    rw [List.nil_append, isIndented_of_head hhead] at hindented
    cases hindented

theorem event?_of_not_named (size : PageSize) {line : String}
    (h : ∀ text label, ¬ Named line.toList text label) : event? size (.ok line) = none := by
  rw [event?]
  by_cases hindented : isIndented line.toList = true
  · rw [if_pos hindented]
    cases hlabel : kernelLabel? (Text.trimStart line.toList) with
    | none => simp only [hlabel]
    | some label => exact absurd (named_iff.mpr ⟨hindented, rfl, hlabel⟩) (h _ label)
  · rw [if_neg hindented]

variable (size : PageSize) {line : String} {text : List Char} {label : String} in
theorem event?_of_form {range : AddressRange} (h : Named line.toList text label)
    (hform : Form text range) :
    event? size (.ok line) =
      some (.span (Span.ofBounds (size.floor range.first) (size.ceil (after range.last)) label)) := by
  obtain ⟨hindented, rfl, hlabel⟩ := named_iff.mp h
  simp only [event?, if_pos hindented, hlabel, AddressRange.ofLeading?_eq_some_iff.mpr hform]

variable (size : PageSize) {line : String} {text : List Char} {label : String} in
theorem event?_of_no_form (h : Named line.toList text label) (hform : ∀ range, ¬ Form text range) :
    event? size (.ok line) = some (.notice (.unreadableRegion (String.ofList text))) := by
  obtain ⟨hindented, rfl, hlabel⟩ := named_iff.mp h
  have hrange : AddressRange.ofLeading? (Text.trimStart line.toList) = none := by
    rw [Option.eq_none_iff_forall_ne_some]
    intro range hrange
    exact hform range (AddressRange.ofLeading?_eq_some_iff.mp hrange)
  simp only [event?, if_pos hindented, hlabel, hrange]

theorem event?_cases (size : PageSize) (line : String) :
    (∃ text label range, Named line.toList text label ∧ Form text range ∧
      event? size (.ok line) = some (.span
        (Span.ofBounds (size.floor range.first) (size.ceil (after range.last)) label))) ∨
    (∃ text label, Named line.toList text label ∧ (∀ range, ¬ Form text range) ∧
      event? size (.ok line) = some (.notice (.unreadableRegion (String.ofList text)))) ∨
    ((∀ text label, ¬ Named line.toList text label) ∧ event? size (.ok line) = none) := by
  by_cases hnamed : ∃ text label, Named line.toList text label
  · obtain ⟨text, label, hnamed⟩ := hnamed
    by_cases hform : ∃ range, Form text range
    · obtain ⟨range, hform⟩ := hform
      exact .inl ⟨text, label, range, hnamed, hform, event?_of_form size hnamed hform⟩
    · have hno := not_exists.mp hform
      exact .inr (.inl ⟨text, label, hnamed, hno, event?_of_no_form size hnamed hno⟩)
  · have hno : ∀ text label, ¬ Named line.toList text label :=
      fun text label h => hnamed ⟨text, label, h⟩
    exact .inr (.inr ⟨hno, event?_of_not_named size hno⟩)

theorem event?_eq_span_iff {size : PageSize} {line : String} {s : Span} :
    event? size (.ok line) = some (.span s) ↔
      ∃ text label range, Named line.toList text label ∧ Form text range ∧
        s = Span.ofBounds (size.floor range.first) (size.ceil (after range.last)) label := by
  constructor
  · intro h
    rcases event?_cases size line with ⟨text, label, range, hnamed, hform, hevent⟩ |
      ⟨_, _, _, _, hevent⟩ | ⟨_, hevent⟩ <;> rw [hevent] at h <;> cases h
    exact ⟨text, label, range, hnamed, hform, rfl⟩
  · rintro ⟨text, label, range, hnamed, hform, rfl⟩
    exact event?_of_form size hnamed hform

theorem event?_eq_notice_iff {size : PageSize} {line : String} {notice : Notice} :
    event? size (.ok line) = some (.notice notice) ↔
      ∃ text label, Named line.toList text label ∧ (∀ range, ¬ Form text range) ∧
        notice = .unreadableRegion (String.ofList text) := by
  constructor
  · intro h
    rcases event?_cases size line with ⟨_, _, _, _, _, hevent⟩ |
      ⟨text, label, hnamed, hform, hevent⟩ | ⟨_, hevent⟩ <;> rw [hevent] at h <;> cases h
    exact ⟨text, label, hnamed, hform, rfl⟩
  · rintro ⟨text, label, hnamed, hform, rfl⟩
    exact event?_of_no_form size hnamed hform

theorem event?_ne_failure (size : PageSize) (line : String) (failure : Failure) :
    event? size (.ok line) ≠ some (.failure failure) := by
  rcases event?_cases size line with ⟨_, _, _, _, _, hevent⟩ | ⟨_, _, _, _, hevent⟩ | ⟨_, hevent⟩ <;>
    simp [hevent]

/-- The span of a part of the kernel image, in numbers without a bound: from the page of the
first address to the page boundary after the last one, which is no higher than the last page. -/
structure SpanOf (size : PageSize) (range : AddressRange) (label : String) (s : Span) : Prop where
  start : s.start.toNat = range.first.toNat / size.bytes.toNat * size.bytes.toNat
  stop : s.stop.toNat = max (range.first.toNat / size.bytes.toNat * size.bytes.toNat)
    (min ((range.last.toNat + 1) ⌈/⌉ size.bytes.toNat * size.bytes.toNat)
      (UInt64.size - size.bytes.toNat))
  label : s.label = label

theorem toNat_after (last : UInt64) :
    (after last).toNat = min (last.toNat + 1) (UInt64.size - 1) := by
  have hlt := last.toNat_lt_size
  rw [after]
  split
  next htop =>
    have hmax : last.toNat = UInt64.size - 1 := by
      rw [htop]
      rfl
    omega
  next hbelow =>
    have hne : last.toNat ≠ UInt64.size - 1 := fun h => hbelow (UInt64.toNat_inj.mp h)
    have hadd : (last + 1).toNat = last.toNat + 1 := by
      rw [UInt64.toNat_add]
      exact Nat.mod_eq_of_lt (by change last.toNat + 1 < UInt64.size; omega)
    omega

theorem toNat_ceil_after (size : PageSize) (last : UInt64) :
    (size.ceil (after last)).toNat =
      min ((last.toNat + 1) ⌈/⌉ size.bytes.toNat * size.bytes.toNat)
        (UInt64.size - size.bytes.toNat) := by
  have hpos := size.bytes_pos
  have hlast := size.toNat_lastPage
  have hlt := last.toNat_lt_size
  have hbound : size.lastPage.toNat = UInt64.size - size.bytes.toNat := by omega
  rw [PageSize.toNat_ceil, toNat_after, hbound]
  by_cases htop : last.toNat + 1 = UInt64.size
  · have hle (n : Nat) : n ≤ n ⌈/⌉ size.bytes.toNat * size.bytes.toNat := by
      rw [Nat.mul_comm]
      exact (ceilDiv_le_iff_le_mul hpos).mp (Nat.le_refl _)
    have hbelow := hle (min (last.toNat + 1) (UInt64.size - 1))
    have habove := hle (last.toNat + 1)
    omega
  · have hmin : min (last.toNat + 1) (UInt64.size - 1) = last.toNat + 1 := by omega
    rw [hmin]

theorem spanOf_ofBounds (size : PageSize) (range : AddressRange) (label : String) :
    SpanOf size range label
      (Span.ofBounds (size.floor range.first) (size.ceil (after range.last)) label) where
  start := by rw [Span.start_ofBounds, PageSize.toNat_floor]
  stop := by rw [Span.toNat_stop_ofBounds, PageSize.toNat_floor, toNat_ceil_after]
  label := label_ofBounds _ _ _

theorem SpanOf.unique {size : PageSize} {range : AddressRange} {label : String} {s t : Span}
    (hs : SpanOf size range label s) (ht : SpanOf size range label t) : s = t := by
  have hstart := UInt64.toNat_inj.mp (hs.start.trans ht.start.symm)
  have hstop := UInt64.toNat_inj.mp (hs.stop.trans ht.stop.symm)
  have hlabel := hs.label.trans ht.label.symm
  cases s
  cases t
  cases hstart
  cases hstop
  cases hlabel
  rfl

theorem event?_eq_span_iff_spanOf {size : PageSize} {line : String} {s : Span} :
    event? size (.ok line) = some (.span s) ↔
      ∃ text label range, Named line.toList text label ∧ Form text range ∧
        SpanOf size range label s := by
  rw [event?_eq_span_iff]
  constructor
  · rintro ⟨text, label, range, hnamed, hform, rfl⟩
    exact ⟨text, label, range, hnamed, hform, spanOf_ofBounds size range label⟩
  · rintro ⟨text, label, range, hnamed, hform, hspan⟩
    exact ⟨text, label, range, hnamed, hform, hspan.unique (spanOf_ofBounds size range label)⟩

/-- A region of physical memory, at a depth below the regions that it is a part of. -/
structure Region where
  depth : Nat
  range : AddressRange
  name : String
  unbroken : '\n' ∉ name.toList

namespace Region

/-- A line of the listing, without its name and with any name. -/
def lead (width depth : Nat) (range : AddressRange) : List Char :=
  List.replicate (2 * depth) ' ' ++ (range.written width ++ separator)

def text (width : Nat) (region : Region) : String :=
  String.ofList (lead width region.depth region.range ++ region.name.toList)

def label (region : Region) : String :=
  String.ofList (Text.trimEnd region.name.toList)

theorem toList_label (region : Region) :
    region.label.toList = Text.trimEnd region.name.toList :=
  String.toList_ofList

/-- A part of the kernel image is part of a region, and has a name that begins with `Kernel`. -/
def IsKernelPart (region : Region) : Prop :=
  0 < region.depth ∧ "Kernel".toList <+: region.label.toList

instance (region : Region) : Decidable region.IsKernelPart :=
  inferInstanceAs (Decidable (_ ∧ _))

theorem separated_written (width : Nat) (range : AddressRange) (name : List Char) :
    Separated (range.written width ++ (separator ++ name)) (range.written width) name where
  text_eq := rfl
  first earlier hearlier := by
    -- A separator begins with a space, and there is none in a written range.
    by_contra hshort
    have hspace : earlier ++ [' '] <+: range.written width ++ (separator ++ name) := by
      refine List.IsPrefix.trans ?_ hearlier
      exact (List.prefix_append_right_inj earlier).mpr ⟨[':', ' '], rfl⟩
    have hlength : (earlier ++ [' ']).length ≤ (range.written width).length := by
      rw [List.length_append, List.length_singleton]
      exact Nat.lt_of_not_le hshort
    have hinside := List.prefix_of_prefix_length_le hspace (List.prefix_append _ _) hlength
    have hmem : ' ' ∈ range.written width := hinside.subset (by simp)
    exact absurd (AddressRange.mem_written hmem).1 (by decide)

theorem isBlank_of_written {width : Nat} {range : AddressRange} {c : Char}
    (h : c ∈ range.written width) : Text.isBlank c = false := by
  obtain ⟨hlow, hhigh⟩ := AddressRange.mem_written h
  simp only [Text.isBlank, Text.blankRanges, List.any_cons, List.any_nil, Bool.or_eq_false_iff,
    Bool.and_eq_false_iff, decide_eq_false_iff_not, and_true]
  omega

theorem head?_written (width : Nat) (range : AddressRange) (rest : List Char) :
    ∀ c ∈ (range.written width ++ rest).head?, Text.isBlank c = false := by
  have hne : range.written width ≠ [] := by simp [AddressRange.written]
  intro c hc
  rw [List.head?_append_of_ne_nil _ hne] at hc
  exact isBlank_of_written (List.mem_of_mem_head? hc)

theorem named_text_iff {width depth : Nat} {range : AddressRange} {name text : List Char}
    {label : String} :
    Named (lead width depth range ++ name) text label ↔
      0 < depth ∧ "Kernel".toList <+: Text.trimEnd name ∧
        range.written width ++ (separator ++ name) = text ∧
        String.ofList (Text.trimEnd name) = label := by
  have hline : lead width depth range ++ name =
      List.replicate (2 * depth) ' ' ++ (range.written width ++ (separator ++ name)) := by
    rw [lead, List.append_assoc, List.append_assoc]
  have hhead := head?_written width range (separator ++ name)
  have hstart : Text.trimStart (lead width depth range ++ name) =
      range.written width ++ (separator ++ name) := by
    rw [hline]
    exact Text.trimStart_spaces _ hhead
  have hafter : afterColon (range.written width ++ (separator ++ name)) = some name :=
    afterColon_eq_some_iff.mpr ⟨_, separated_written width range name⟩
  have hindented : isIndented (lead width depth range ++ name) = true ↔ 0 < depth := by
    cases depth with
    | zero =>
      rw [hline, Nat.mul_zero, List.replicate_zero, List.nil_append, isIndented_of_head hhead]
      decide
    | succ depth =>
      have hblank : isIndented (lead width (depth + 1) range ++ name) = true := rfl
      simp [hblank]
  rw [named_iff, kernelLabel?_eq_some_iff, hindented, hstart]
  constructor
  · rintro ⟨hdepth, rfl, after, hname, hkernel, hlabel⟩
    rw [hafter] at hname
    cases hname
    exact ⟨hdepth, hkernel, rfl, hlabel⟩
  · rintro ⟨hdepth, hkernel, rfl, hlabel⟩
    exact ⟨hdepth, rfl, name, hafter, hkernel, hlabel⟩

end Region

theorem Named.append_return {line text : List Char} {label : String} (h : Named line text label) :
    Named (line ++ ['\r']) (text ++ ['\r']) label := by
  cases h with
  | @intro indent _ before name trailing hne hindent hhead hsep htrailing hlast hkernel =>
    have hnonempty : text ≠ [] := by
      rw [hsep.text_eq]
      simp [separator]
    rw [List.append_assoc]
    have hseparated : Separated (text ++ ['\r']) before (name ++ (trailing ++ ['\r'])) := by
      constructor
      · rw [hsep.text_eq]
        simp only [List.append_assoc]
      · intro earlier hearlier
        rcases List.prefix_concat_iff.mp hearlier with heq | hprefix
        · have hend := congrArg List.getLast? heq
          rw [List.getLast?_concat] at hend
          simp [separator] at hend
        · exact hsep.first earlier hprefix
    refine .intro hne hindent ?_ hseparated ?_ hlast hkernel
    · rw [List.head?_append_of_ne_nil _ hnonempty]
      exact hhead
    · intro c hc
      rcases List.mem_append.mp hc with hold | hnew
      · exact htrailing c hold
      · rw [List.mem_singleton.mp hnew]
        decide

/-- No span is read from a line. -/
def Plain (line : List Char) : Prop :=
  ∀ text label range, Named line text label → ¬ Form text range

theorem Plain.dropReturn {line : List Char} (h : Plain line) : Plain (Text.dropReturn line) := by
  by_cases hreturn : line.getLast? = some '\r'
  · obtain ⟨init, rfl⟩ := List.getLast?_eq_some_iff.mp hreturn
    rw [Text.dropReturn_concat]
    intro text label range hnamed hform
    have hend : ∀ c ∈ ['\r'].head?, ¬ Text.Numeral.IsDigit 16 c ∧ c ≠ 'x' := by
      rintro c ⟨⟩
      decide
    exact h _ label range hnamed.append_return (hform.append hend)
  · rwa [Text.dropReturn_of_getLast? hreturn]

theorem Plain.event?_ne_span {line : List Char} (h : Plain line) (size : PageSize) (s : Span) :
    event? size (.ok (String.ofList line)) ≠ some (.span s) := by
  rw [Ne, event?_eq_span_iff, String.toList_ofList]
  rintro ⟨text, label, range, hnamed, hform, -⟩
  exact h text label range hnamed hform

namespace Region

theorem trimEnd_dropReturn (name : List Char) :
    Text.trimEnd (Text.dropReturn name) = Text.trimEnd name := by
  by_cases hreturn : name.getLast? = some '\r'
  · obtain ⟨init, rfl⟩ := List.getLast?_eq_some_iff.mp hreturn
    have hblank : Text.isBlank '\r' = true := by decide
    rw [Text.dropReturn_concat]
    exact (List.rdropWhile_concat_pos (p := Text.isBlank) init '\r' hblank).symm
  · rw [Text.dropReturn_of_getLast? hreturn]

theorem named_line_iff (width : Nat) {region : Region} {text : List Char} {label : String} :
    Named (Text.dropReturn (region.text width).toList) text label ↔
      region.IsKernelPart ∧ region.label = label ∧
        region.range.written width ++
          (separator ++ Text.dropReturn region.name.toList) = text := by
  have hlead : (lead width region.depth region.range).getLast? ≠ some '\r' := by
    simp [lead, separator]
  rw [Region.text, String.toList_ofList, Text.dropReturn_append hlead, named_text_iff,
    trimEnd_dropReturn, IsKernelPart, toList_label, Region.label]
  constructor
  · rintro ⟨hdepth, hkernel, htext, hlabel⟩
    exact ⟨⟨hdepth, hkernel⟩, hlabel, htext⟩
  · rintro ⟨⟨hdepth, hkernel⟩, hlabel, htext⟩
    exact ⟨hdepth, hkernel, htext, hlabel⟩

theorem form_line (width : Nat) (range : AddressRange) (name : List Char) :
    Form (range.written width ++ (separator ++ name)) range := by
  apply AddressRange.form_written
  rintro c ⟨⟩
  decide

end Region

/-- A line of the listing: that of a region, or any other one that no span is read from. -/
inductive ListedLine where
  | region (region : Region)
  | other (line : String) (unbroken : '\n' ∉ line.toList) (plain : Plain line.toList)

namespace ListedLine

def text (width : Nat) : ListedLine → String
  | .region r => r.text width
  | .other line .. => line

def kernelPart? : ListedLine → Option Region
  | .region r => if r.IsKernelPart then some r else none
  | .other .. => none

theorem unbroken_text (width : Nat) (line : ListedLine) : '\n' ∉ (line.text width).toList := by
  cases line with
  | other line hline _ => exact hline
  | region r =>
    intro hmem
    rw [text, Region.text, String.toList_ofList, Region.lead] at hmem
    simp only [List.mem_append, or_assoc] at hmem
    rcases hmem with hindent | hwritten | hseparator | hname
    · cases List.eq_of_mem_replicate hindent
    · exact absurd (AddressRange.mem_written hwritten).1 (by decide)
    · exact absurd hseparator (by decide)
    · exact r.unbroken hname

theorem kernelPart?_eq_some_iff {line : ListedLine} {r : Region} :
    line.kernelPart? = some r ↔ line = .region r ∧ r.IsKernelPart := by
  cases line with
  | other => simp [kernelPart?]
  | region r' =>
    rw [kernelPart?]
    split
    next hpart =>
      constructor
      · rintro ⟨⟩
        exact ⟨rfl, hpart⟩
      · rintro ⟨⟨⟩, -⟩
        rfl
    next hother =>
      constructor
      · rintro ⟨⟩
      · rintro ⟨⟨⟩, hpart⟩
        exact absurd hpart hother

def read (width : Nat) (line : ListedLine) : String :=
  String.ofList (Text.dropReturn (line.text width).toList)

theorem event?_of_kernelPart (size : PageSize) (width : Nat) {r : Region} (h : r.IsKernelPart) :
    event? size (.ok (read width (.region r))) =
      some (.span (Span.ofBounds (size.floor r.range.first) (size.ceil (after r.range.last))
        r.label)) := by
  have hnamed := (Region.named_line_iff width).mpr ⟨h, rfl, rfl⟩
  rw [← String.toList_ofList (l := Text.dropReturn (r.text width).toList)] at hnamed
  exact event?_of_form size hnamed (Region.form_line width r.range _)

theorem plain_of_no_kernelPart (width : Nat) {line : ListedLine} (h : line.kernelPart? = none) :
    Plain (Text.dropReturn (line.text width).toList) := by
  cases line with
  | other line hline hplain => exact hplain.dropReturn
  | region r =>
    intro text label range hnamed
    have hpart := ((Region.named_line_iff width).mp hnamed).1
    rw [kernelPart?_eq_some_iff.mpr ⟨rfl, hpart⟩] at h
    cases h

end ListedLine

end FrameScan.Source.Iomem

namespace FrameScan.Source

def Event.span? : Event → Option Span
  | .span s => some s
  | _ => none

def spans (source : Source) : List Span :=
  source.filterMap Event.span?

theorem Iomem.ListedLine.rel_kernelPart (size : PageSize) (width : Nat) (line : ListedLine) :
    Option.Rel (fun r s => SpanOf size r.range r.label s) line.kernelPart?
      ((event? size (.ok (line.read width))).bind Event.span?) := by
  cases hpart : line.kernelPart? with
  | some r =>
    obtain ⟨rfl, hkernel⟩ := kernelPart?_eq_some_iff.mp hpart
    rw [event?_of_kernelPart size width hkernel]
    exact .some (spanOf_ofBounds size r.range r.label)
  | none =>
    have hplain := plain_of_no_kernelPart width hpart
    cases hevent : event? size (.ok (line.read width)) with
    | none => exact .none
    | some event =>
      cases event with
      | span s => exact absurd hevent (hplain.event?_ne_span size s)
      | failure failure => exact .none
      | notice notice => exact .none

theorem forall₂_filterMap {α β γ : Type} {R : β → γ → Prop} {f : α → Option β} {g : α → Option γ}
    {list : List α} (h : ∀ a ∈ list, Option.Rel R (f a) (g a)) :
    List.Forall₂ R (list.filterMap f) (list.filterMap g) := by
  induction list with
  | nil => exact .nil
  | cons a rest ih =>
    obtain ⟨hfirst, hrest⟩ := List.forall_mem_cons.mp h
    generalize hf : f a = x at hfirst
    generalize hg : g a = y at hfirst
    cases hfirst with
    | some hab =>
      rw [List.filterMap_cons_some hf, List.filterMap_cons_some hg]
      exact .cons hab (ih hrest)
    | none =>
      rw [List.filterMap_cons_none hf, List.filterMap_cons_none hg]
      exact ih hrest

open Iomem

theorem iomem_of_delivers {settings : Settings} {width : Nat} {lines : List ListedLine}
    {listing : Listing} (h : listing.Delivers (lines.map (ListedLine.text width))) :
    iomem settings listing =
      lines.filterMap fun line => event? settings.pageSize (.ok (line.read width)) := by
  rw [iomem, h.lines_eq_map (ListedLine.unbroken_text width), List.filterMap_map]
  simp only [Function.comp_def, ListedLine.read]

/-- A span is read from a line if and only if the line is indented and has a name that begins
with `Kernel` and an address range before it; the name is what follows the first colon between
spaces, up to the white space at its end. The span has that name, and its bounds are those of
the range, the second one included, rounded to pages; it ends no later than the last page
begins. Of a listing of regions, nested in any way and with other lines between them, the spans
are those of the regions at a depth whose names begin with `Kernel`, in order. -/
theorem kernel_parts_selected (settings : Settings) :
    (∀ (line : String) (s : Span), event? settings.pageSize (.ok line) = some (.span s) ↔
      ∃ text label range, Named line.toList text label ∧ AddressRange.Form text range ∧
        SpanOf settings.pageSize range label s) ∧
    ∀ (width : Nat) (lines : List ListedLine) (listing : Listing),
      listing.Delivers (lines.map (ListedLine.text width)) →
      List.Forall₂ (fun r s => SpanOf settings.pageSize r.range r.label s)
        (lines.filterMap ListedLine.kernelPart?) (iomem settings listing).spans ∧
      ∀ failure, Event.failure failure ∉ iomem settings listing := by
  refine ⟨fun line s => event?_eq_span_iff_spanOf, ?_⟩
  intro width lines listing hdelivers
  rw [iomem_of_delivers hdelivers]
  constructor
  · rw [spans, List.filterMap_filterMap]
    exact forall₂_filterMap fun line _ => line.rel_kernelPart settings.pageSize width
  · intro failure hmem
    obtain ⟨line, -, hevent⟩ := List.mem_filterMap.mp hmem
    exact event?_ne_failure settings.pageSize (line.read width) failure hevent

namespace Iomem

def codePart : Region :=
  ⟨1, ⟨0x1000000, 0x1E00E16⟩, "Kernel code", by decide⟩

/-- A part further down that reaches to the last address. There is a space and a carriage return
after its name. -/
def topPart : Region :=
  ⟨2, ⟨0xFFFFFFFFFFFFF800, 0xFFFFFFFFFFFFFFFF⟩, "Kernel bss \r", by decide⟩

theorem plain_unreadable : Plain "  zzz : Kernel data".toList := by
  intro text label range hnamed hform
  obtain ⟨-, rfl, -⟩ := named_iff.mp hnamed
  have hnone : AddressRange.ofLeading? (Text.trimStart "  zzz : Kernel data".toList) = none := by
    decide
  rw [← AddressRange.ofLeading?_eq_some_iff, hnone] at hform
  cases hform

/-- Regions at three depths, one with the name of the kernel at none, and a line without a range. -/
def nestedLines : List ListedLine :=
  [.region ⟨0, ⟨0x100000, 0xBFFDFFFF⟩, "Kernel memory", by decide⟩, .region codePart,
    .other "  zzz : Kernel data" (by decide) plain_unreadable, .region topPart]

def nestedListing : Listing :=
  let bytes := Listing.written (nestedLines.map (ListedLine.text 8))
  [.bytes (bytes.take 80), .fault .interrupted, .bytes (bytes.drop 80)]

end Iomem

theorem nested_parts_selected :
    let settings : Settings := { pageSize := ⟨0x1000, 12, rfl⟩, pageCount := 16 }
    nestedListing.Delivers (nestedLines.map (ListedLine.text 8)) ∧
      List.Forall₂ (fun r s => SpanOf settings.pageSize r.range r.label s) [codePart, topPart]
        (iomem settings nestedListing).spans := by
  intro settings
  have hdelivers : nestedListing.Delivers (nestedLines.map (ListedLine.text 8)) :=
    ⟨by decide +kernel, by decide +kernel⟩
  have hparts : nestedLines.filterMap ListedLine.kernelPart? = [codePart, topPart] := rfl
  refine ⟨hdelivers, ?_⟩
  rw [← hparts]
  exact ((kernel_parts_selected settings).2 8 nestedLines nestedListing hdelivers).1

end FrameScan.Source
