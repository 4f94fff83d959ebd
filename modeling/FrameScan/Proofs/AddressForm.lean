import FrameScan.Source.Maps
import FrameScan.Proofs.DigitStrings
import FrameScan.Proofs.Trimming

/-!
# The form of address ranges

Which lines begin with an address range, and with which one. A range is two addresses with a
hyphen between them; an address is a string of hexadecimal digits, perhaps with `0x` before it,
and blanks may stand before each of the three. `mapping_iff_form` says that the lines of this
form are those that a mapping is read from, with the bounds that the digits denote.
-/

namespace FrameScan.AddressRange

open Text.Numeral

/-- The digits of an address, with or without a mark. -/
inductive Spells : List Char → UInt64 → Prop
  | plain {digits : List Char} {address : UInt64} (denotes : Denotes 16 digits address.toNat) :
      Spells digits address
  | marked {digits : List Char} {address : UInt64} (denotes : Denotes 16 digits address.toNat) :
      Spells ('0' :: 'x' :: digits) address

/-- What follows an address is no part of it: no digit goes on with it, and it is not a zero
that begins a mark. -/
structure EndsBefore (spelled rest : List Char) : Prop where
  no_digit : ∀ c ∈ rest.head?, ¬ IsDigit 16 c
  no_mark : spelled = ['0'] → rest.head? ≠ some 'x'

def Blanks (text : List Char) : Prop :=
  ∀ c ∈ text, c ∈ [' ', '\t', '\n', '\r']

/-- The lines that begin with an address range. -/
inductive Form : List Char → AddressRange → Prop
  | intro {before first between after last rest : List Char} {range : AddressRange}
      (blanks_before : Blanks before) (blanks_between : Blanks between)
      (blanks_after : Blanks after) (spells_first : Spells first range.first)
      (spells_last : Spells last range.last) (ends : EndsBefore last rest) :
      Form (before ++ (first ++ (between ++ '-' :: (after ++ (last ++ rest))))) range

theorem mem_blanks_iff (c : Char) : c ∈ [' ', '\t', '\n', '\r'] ↔ c.isWhitespace = true := by
  simp [Char.isWhitespace]
  tauto

theorem skipBlanks_eq_iff {text rest : List Char} :
    skipBlanks text = rest ↔
      ∃ blanks, text = blanks ++ rest ∧ Blanks blanks ∧ ∀ c ∈ rest.head?, c.isWhitespace = false := by
  rw [skipBlanks, Text.dropWhile_eq_iff]
  simp only [Blanks, mem_blanks_iff]

theorem Spells.exists_head {spelled : List Char} {address : UInt64} (h : Spells spelled address) :
    ∃ c rest, spelled = c :: rest ∧ IsDigit 16 c := by
  cases h with
  | plain denotes =>
    obtain ⟨c, rest, rfl⟩ := List.exists_cons_of_ne_nil denotes.nonempty
    exact ⟨c, rest, rfl, denotes.isDigit c List.mem_cons_self⟩
  | marked denotes => exact ⟨'0', _, rfl, by decide⟩

theorem no_digit_of_mem {c : Char} (h : c ∈ ['-', ' ', '\t', '\n', '\r']) :
    ¬ IsDigit 16 c ∧ c ≠ 'x' := by
  have hall : ['-', ' ', '\t', '\n', '\r'].all (fun c => ¬ IsDigit 16 c ∧ c ≠ 'x') = true := rfl
  exact of_decide_eq_true (List.all_eq_true.mp hall c h)

theorem isDigit_ne_blank {c : Char} (h : IsDigit 16 c) : c.isWhitespace = false := by
  by_contra hblank
  rw [Bool.not_eq_false, ← mem_blanks_iff] at hblank
  exact (no_digit_of_mem (List.mem_cons_of_mem _ hblank)).1 h

theorem address?_eq_some_iff_digits {text rest : List Char} {address : UInt64} :
    address? text = some (address, rest) ↔
      ∃ digits, afterMark text = digits ++ rest ∧ Denotes 16 digits address.toNat ∧
        ∀ c ∈ rest.head?, ¬ IsDigit 16 c := by
  rw [address?]
  constructor
  · intro h
    split at h
    next n hn =>
      split at h
      next hlt =>
        cases h
        refine ⟨_, List.takeWhile_append_dropWhile.symm, ?_, ?_⟩
        · rw [UInt64.toNat_ofNat_of_lt' hlt]
          exact (value?_eq_some_iff (Nat.le_refl 16)).mp hn
        · intro c hc
          obtain ⟨-, -, -, hstop⟩ := Text.dropWhile_eq_iff.mp
            (Eq.refl ((afterMark text).dropWhile isHexDigit))
          rw [← isHexDigit_iff, hstop c hc]
          exact Bool.false_ne_true
      next => cases h
    next => cases h
  · rintro ⟨digits, hdigits, hdenotes, hstop⟩
    have hall : ∀ c ∈ digits, isHexDigit c = true := fun c hc =>
      (isHexDigit_iff c).mpr (hdenotes.isDigit c hc)
    have hend : ∀ c ∈ rest.head?, isHexDigit c = false := by
      intro c hc
      rw [← Bool.not_eq_true, isHexDigit_iff]
      exact hstop c hc
    have htake := Text.takeWhile_append_of_head hall hend
    have hdrop := Text.dropWhile_eq_iff.mpr ⟨digits, rfl, hall, hend⟩
    have hvalue := (value?_eq_some_iff (Nat.le_refl 16)).mpr hdenotes
    rw [hdigits, htake, hdrop, hvalue]
    simp only [if_pos address.toNat_lt_size, UInt64.ofNat_toNat]

theorem address?_eq_some_iff {text rest : List Char} {address : UInt64} :
    address? text = some (address, rest) ↔
      ∃ spelled, text = spelled ++ rest ∧ Spells spelled address ∧ EndsBefore spelled rest := by
  rw [address?_eq_some_iff_digits]
  constructor
  · rintro ⟨digits, hdigits, hdenotes, hstop⟩
    unfold afterMark at hdigits
    split at hdigits
    next more =>
      subst hdigits
      exact ⟨'0' :: 'x' :: digits, rfl, .marked hdenotes, hstop, fun hlone => by cases hlone⟩
    next hunmarked =>
      refine ⟨digits, hdigits, .plain hdenotes, hstop, ?_⟩
      rintro rfl hmark
      obtain ⟨more, rfl⟩ := List.head?_eq_some_iff.mp hmark
      exact hunmarked more hdigits
  · rintro ⟨spelled, rfl, hspells, hstop, hlone⟩
    cases hspells with
    | marked hdenotes => exact ⟨_, rfl, hdenotes, hstop⟩
    | plain hdenotes =>
      refine ⟨spelled, ?_, hdenotes, hstop⟩
      unfold afterMark
      split
      next more hmark =>
        -- An `x` is no digit, and it does not follow a lone zero.
        obtain ⟨c, digits, rfl⟩ := List.exists_cons_of_ne_nil hdenotes.nonempty
        obtain ⟨rfl, hmore⟩ := List.cons.inj hmark
        cases digits with
        | nil => exact absurd (congrArg List.head? hmore) (hlone rfl)
        | cons d digits =>
          have hd : d = 'x' := (List.cons.inj hmore).1
          have hdigit := hdenotes.isDigit d (by simp)
          rw [hd] at hdigit
          exact absurd hdigit (by decide)
      next => rfl

theorem EndsBefore.of_head {spelled rest : List Char}
    (h : ∀ c ∈ rest.head?, ¬ IsDigit 16 c ∧ c ≠ 'x') : EndsBefore spelled rest where
  no_digit c hc := (h c hc).1
  no_mark _ hmark := (h 'x' hmark).2 rfl

theorem endsBefore_hyphen {spelled between rest : List Char} (hblanks : Blanks between) :
    EndsBefore spelled (between ++ '-' :: rest) := by
  apply EndsBefore.of_head
  intro c hc
  cases between with
  | nil =>
    cases hc
    exact no_digit_of_mem List.mem_cons_self
  | cons b between =>
    cases hc
    exact no_digit_of_mem (List.mem_cons_of_mem _ (hblanks c List.mem_cons_self))

theorem ofLeading?_eq_some_iff_steps {line : List Char} {range : AddressRange} :
    ofLeading? line = some range ↔
      ∃ afterFirst afterHyphen rest,
        address? (skipBlanks line) = some (range.first, afterFirst) ∧
        skipBlanks afterFirst = '-' :: afterHyphen ∧
        address? (skipBlanks afterHyphen) = some (range.last, rest) := by
  unfold ofLeading?
  constructor
  · intro h
    split at h
    next => cases h
    next first afterFirst hfirst =>
      split at h
      next afterHyphen hhyphen =>
        obtain ⟨⟨last, rest⟩, hlast, rfl⟩ := Option.map_eq_some_iff.mp h
        exact ⟨afterFirst, afterHyphen, rest, hfirst, hhyphen, hlast⟩
      next => cases h
  · rintro ⟨afterFirst, afterHyphen, rest, hfirst, hhyphen, hlast⟩
    simp only [hfirst, hhyphen, hlast, Option.map_some]

theorem skipBlanks_append {blanks spelled rest : List Char} {address : UInt64}
    (hblanks : Blanks blanks) (hspells : Spells spelled address) :
    skipBlanks (blanks ++ (spelled ++ rest)) = spelled ++ rest := by
  rw [skipBlanks_eq_iff]
  refine ⟨blanks, rfl, hblanks, ?_⟩
  obtain ⟨c, more, rfl, hdigit⟩ := hspells.exists_head
  intro c hc
  cases hc
  exact isDigit_ne_blank hdigit

theorem ofLeading?_eq_some_iff {line : List Char} {range : AddressRange} :
    ofLeading? line = some range ↔ Form line range := by
  rw [ofLeading?_eq_some_iff_steps]
  constructor
  · rintro ⟨afterFirst, afterHyphen, rest, hfirst, hhyphen, hlast⟩
    obtain ⟨first, hline, hspells, -⟩ := address?_eq_some_iff.mp hfirst
    obtain ⟨last, hrest, hspells', hends⟩ := address?_eq_some_iff.mp hlast
    obtain ⟨before, rfl, hbefore, -⟩ := skipBlanks_eq_iff.mp hline
    obtain ⟨between, rfl, hbetween, -⟩ := skipBlanks_eq_iff.mp hhyphen
    obtain ⟨after, rfl, hafter, -⟩ := skipBlanks_eq_iff.mp hrest
    exact .intro hbefore hbetween hafter hspells hspells' hends
  · intro h
    cases h with
    | @intro before first between after last rest _ hbefore hbetween hafter hfirst hlast hends =>
      refine ⟨between ++ '-' :: (after ++ (last ++ rest)), after ++ (last ++ rest), rest, ?_, ?_, ?_⟩
      · rw [skipBlanks_append hbefore hfirst, address?_eq_some_iff]
        exact ⟨first, rfl, hfirst, endsBefore_hyphen hbetween⟩
      · rw [skipBlanks_eq_iff]
        refine ⟨between, rfl, hbetween, ?_⟩
        intro c hc
        cases hc
        decide
      · rw [skipBlanks_append hafter hlast, address?_eq_some_iff]
        exact ⟨last, rfl, hlast, hends⟩

theorem Form.append {line rest : List Char} {range : AddressRange} (h : Form line range)
    (hrest : ∀ c ∈ rest.head?, ¬ IsDigit 16 c ∧ c ≠ 'x') : Form (line ++ rest) range := by
  cases h with
  | @intro before first between after last more _ hbefore hbetween hafter hfirst hlast hends =>
    have happend : EndsBefore last (more ++ rest) := by
      cases more with
      | nil => exact .of_head hrest
      | cons c more => exact ⟨hends.no_digit, hends.no_mark⟩
    have hform := Form.intro hbefore hbetween hafter hfirst hlast happend
    simpa only [List.append_assoc, List.cons_append] using hform

def paddedDigits (width : Nat) (address : UInt64) : List Char :=
  (Nat.toDigits 16 address.toNat).leftpad width '0'

def written (width : Nat) (range : AddressRange) : List Char :=
  paddedDigits width range.first ++ '-' :: paddedDigits width range.last

theorem spells_paddedDigits (width : Nat) (address : UInt64) :
    Spells (paddedDigits width address) address :=
  .plain ((value?_eq_some_iff (Nat.le_refl 16)).mp
    (value?_leftpad (by decide) (by decide) width address.toNat))

theorem form_written (width : Nat) (range : AddressRange) {rest : List Char}
    (hrest : ∀ c ∈ rest.head?, ¬ IsDigit 16 c ∧ c ≠ 'x') :
    Form (written width range ++ rest) range := by
  have hnone : Blanks [] := fun c hc => absurd hc List.not_mem_nil
  have hform := Form.intro hnone hnone hnone (spells_paddedDigits width range.first)
    (spells_paddedDigits width range.last) (.of_head hrest)
  simpa [written] using hform

theorem mem_written {width : Nat} {range : AddressRange} {c : Char} (h : c ∈ written width range) :
    32 < c.toNat ∧ c.toNat ≤ 127 := by
  have hdigits {address : UInt64} (hc : c ∈ paddedDigits width address) :
      32 < c.toNat ∧ c.toNat ≤ 127 := by
    obtain ⟨d, hd, rfl⟩ := mem_leftpad (by decide) hc
    exact toNat_digitChar hd
  rcases List.mem_append.mp h with hfirst | hrest
  · exact hdigits hfirst
  · rcases List.mem_cons.mp hrest with rfl | hlast
    · decide
    · exact hdigits hlast

/-- A character, if a text begins with it, and the rest of the text. -/
def optional (c : Char) (text : List Char) : List Char × List Char :=
  if text.head? = some c then ([c], text.tail) else ([], text)

/-- A zero, an `x` and digits, any of which may be missing, and the rest of the text. -/
def token (text : List Char) : List Char × List Char :=
  let zero := optional '0' text
  let mark := optional 'x' zero.2
  (zero.1 ++ (mark.1 ++ mark.2.takeWhile isHexDigit), mark.2.dropWhile isHexDigit)

/-- A token without the marks at its front, however many there are. -/
def withoutMarks : List Char → List Char
  | '0' :: 'x' :: rest => withoutMarks rest
  | token => token

def word? (token : List Char) : Option UInt64 :=
  match value? 16 (withoutMarks token) with
  | some n => if n < UInt64.size then some (UInt64.ofNat n) else none
  | none => none

def afterHyphen? (text : List Char) : Option (List Char) :=
  if text.head? = some '-' then some text.tail else none

/-- A range by way of its tokens: both are taken from the line before either is looked at. -/
def ofTokens? (line : List Char) : Option AddressRange := do
  let first := token (skipBlanks line)
  let rest ← afterHyphen? (skipBlanks first.2)
  let last := token (skipBlanks rest)
  return ⟨← word? first.1, ← word? last.1⟩

theorem withoutMarks_of_digits {digits : List Char} (h : ∀ c ∈ digits, isHexDigit c = true) :
    withoutMarks digits = digits := by
  unfold withoutMarks
  split
  next rest =>
    have hmark := h 'x' (by simp)
    exact absurd hmark (by decide)
  next => rfl

theorem address?_eq_word? (text : List Char) :
    address? text = (word? ((afterMark text).takeWhile isHexDigit)).map
      fun address => (address, (afterMark text).dropWhile isHexDigit) := by
  have hdigits : ∀ c ∈ (afterMark text).takeWhile isHexDigit, isHexDigit c = true :=
    fun c hc => List.mem_takeWhile_imp hc
  rw [address?, word?, withoutMarks_of_digits hdigits]
  cases value? 16 ((afterMark text).takeWhile isHexDigit) with
  | none => rfl
  | some n => by_cases hlt : n < UInt64.size <;> simp [hlt]

theorem afterMark_of_head {text : List Char} (h : text.head? ≠ some '0') :
    afterMark text = text := by
  unfold afterMark
  split
  next rest => exact absurd rfl h
  next => rfl

theorem afterMark_zero {rest : List Char} (h : rest.head? ≠ some 'x') :
    afterMark ('0' :: rest) = '0' :: rest := by
  unfold afterMark
  split
  next more hmark =>
    cases hmark
    exact absurd rfl h
  next => rfl

/-- Tokens are read as addresses are. An `x` without a zero before it belongs to its token, which
is no number then. -/
theorem address?_eq_token (text : List Char) :
    address? text = (word? (token text).1).map fun address => (address, (token text).2) := by
  rw [address?_eq_word?, token]
  by_cases hzero : text.head? = some '0'
  · obtain ⟨rest, rfl⟩ := List.head?_eq_some_iff.mp hzero
    by_cases hmark : rest.head? = some 'x'
    · obtain ⟨more, rfl⟩ := List.head?_eq_some_iff.mp hmark
      rfl
    · rw [afterMark_zero hmark]
      have hdigit : isHexDigit '0' = true := by decide
      simp [optional, hmark, hdigit]
  · rw [afterMark_of_head hzero]
    by_cases hmark : text.head? = some 'x'
    · obtain ⟨rest, rfl⟩ := List.head?_eq_some_iff.mp hmark
      have hempty : word? (('x' :: rest).takeWhile isHexDigit) = none := rfl
      have hbare : word? ('x' :: rest.takeWhile isHexDigit) = none := rfl
      have htoken : optional '0' ('x' :: rest) = ([], 'x' :: rest) := rfl
      have hx : optional 'x' ('x' :: rest) = (['x'], rest) := rfl
      simp only [htoken, hx, List.nil_append, List.singleton_append, hempty, hbare,
        Option.map_none]
    · simp [optional, hzero, hmark]

theorem afterHyphen?_eq_some_iff {text rest : List Char} :
    afterHyphen? text = some rest ↔ text = '-' :: rest := by
  rw [afterHyphen?]
  cases text with
  | nil => simp
  | cons c text => by_cases hyphen : c = '-' <;> simp [hyphen]

theorem ofTokens?_eq (line : List Char) : ofTokens? line = ofLeading? line := by
  apply Option.ext
  intro range
  rw [ofLeading?_eq_some_iff_steps]
  simp only [ofTokens?, address?_eq_token, Option.bind_eq_bind, Option.bind_eq_some_iff,
    Option.map_eq_some_iff, afterHyphen?_eq_some_iff]
  constructor
  · rintro ⟨rest, hyphen, first, hfirst, last, hlast, heq⟩
    cases heq
    exact ⟨_, rest, _, ⟨first, hfirst, rfl⟩, hyphen, last, hlast, rfl⟩
  · rintro ⟨_, rest, _, ⟨first, hfirst, hpair⟩, hyphen, last, hlast, hpair'⟩
    cases hpair
    cases hpair'
    exact ⟨rest, hyphen, _, hfirst, _, hlast, rfl⟩

end FrameScan.AddressRange

namespace FrameScan.Source.Maps

open AddressRange (Form)

variable {size : PageSize} {line : String}

theorem span?_eq_some_iff {s : Span} :
    span? size line.toList = some s ↔ ∃ range, Form line.toList range ∧
      s = Span.ofBounds (size.floor range.first) (size.ceil range.last) (label line.toList) := by
  rw [span?, Option.map_eq_some_iff]
  simp only [AddressRange.ofLeading?_eq_some_iff, eq_comm (b := s)]

theorem event_eq_span_iff {s : Span} :
    event size (.ok line) = .span s ↔ ∃ range, Form line.toList range ∧
      s = Span.ofBounds (size.floor range.first) (size.ceil range.last) (label line.toList) := by
  rw [← span?_eq_some_iff, event]
  cases span? size line.toList <;> simp

theorem event_eq_notice_iff {notice : Notice} :
    event size (.ok line) = .notice notice ↔
      (∀ range, ¬ Form line.toList range) ∧ notice = .unreadableMapping line := by
  have hnone : span? size line.toList = none ↔ ∀ range, ¬ Form line.toList range := by
    rw [span?, Option.map_eq_none_iff, Option.eq_none_iff_forall_ne_some]
    simp only [ne_eq, AddressRange.ofLeading?_eq_some_iff]
  rw [← hnone, event]
  cases span? size line.toList <;> simp [eq_comm]

/-- The lines that a mapping is read from are those that begin with an address range, and its
bounds are what the digits of the range denote, rounded to pages. Reading the range by way of
tokens comes to the same. -/
theorem mapping_iff_form (size : PageSize) (line : String) :
    (∀ s, event size (.ok line) = .span s ↔
      ∃ range, AddressRange.Form line.toList range ∧
        s = Span.ofBounds (size.floor range.first) (size.ceil range.last) (label line.toList)) ∧
    (∀ range, AddressRange.ofLeading? line.toList = some range ↔
      AddressRange.Form line.toList range) ∧
    AddressRange.ofTokens? line.toList = AddressRange.ofLeading? line.toList :=
  ⟨fun _ => event_eq_span_iff, fun _ => AddressRange.ofLeading?_eq_some_iff,
    AddressRange.ofTokens?_eq _⟩

end FrameScan.Source.Maps
