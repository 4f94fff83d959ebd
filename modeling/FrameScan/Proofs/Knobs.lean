import FrameScan.Proofs.CommandLine
import FrameScan.Proofs.ListedText

/-!
# Knobs of the environment

Whether a variable that is set makes a difference. The log level and the page cache filter are
read in the same way: a value that is a name gives what it names, and text that is no name is
refused. A value that is not text is neither: it counts as not set, so that the default takes its
place and nothing is said. `knobs_heeded_iff_text` says that a variable is heeded but for that.
-/

namespace FrameScan

namespace Text.Utf8

def upper (b : UInt8) : UInt8 :=
  if 0x61 ≤ b ∧ b ≤ 0x7A then b - 0x20 else b

theorem upper_of_ascii : ∀ n < 128, (Char.ofNat n).toUpper.toNat < 128 ∧
    upper (UInt8.ofNat n) = UInt8.ofNat (Char.ofNat n).toUpper.toNat := by
  decide

theorem upper_of_le {b : UInt8} (h : 128 ≤ b.toNat) : upper b = b := by
  apply if_neg
  rintro ⟨-, hle⟩
  have hhigh : b.toNat ≤ 122 := UInt8.le_iff_toNat_le.mp hle
  omega

theorem toUpper_of_lt {c : Char} (h : 127 < c.toNat) : c.toUpper = c := by
  apply dif_neg
  rintro ⟨-, hle⟩
  have hhigh : c.toNat ≤ 122 := UInt32.le_iff_toNat_le.mp hle
  omega

theorem map_upper_utf8EncodeChar (c : Char) :
    (String.utf8EncodeChar c).map upper = String.utf8EncodeChar c.toUpper := by
  by_cases h : c.toNat ≤ 127
  · obtain ⟨hlt, hupper⟩ := upper_of_ascii c.toNat (by omega)
    rw [Char.ofNat_toNat] at hlt hupper
    rw [utf8EncodeChar_of_le h, utf8EncodeChar_of_le (Nat.le_of_lt_succ hlt), List.map_singleton,
      hupper]
  · have hhigh : 127 < c.toNat := Nat.lt_of_not_le h
    rw [toUpper_of_lt hhigh]
    calc (String.utf8EncodeChar c).map upper
      _ = (String.utf8EncodeChar c).map id :=
        List.map_congr_left fun _ hb => upper_of_le (le_of_mem_utf8EncodeChar hhigh hb)
      _ = String.utf8EncodeChar c := List.map_id _

theorem encode_map_toUpper (text : String) :
    encode (text.map Char.toUpper) = (encode text).map upper := by
  rw [encode_eq_flatMap, encode_eq_flatMap, String.toList_map, List.flatMap_map, List.map_flatMap]
  simp only [map_upper_utf8EncodeChar]

theorem encode_injective {first second : String} (h : encode first = encode second) :
    first = second := by
  apply Option.some_inj.mp
  rw [← decode?_encode first, h, decode?_encode]

theorem isText_encode (text : String) : isText (encode text) = true := by
  rw [isText, decode?_encode]
  rfl

theorem isText_of_ascii {bytes : List UInt8} (h : ∀ b ∈ bytes, b.toNat < 128) :
    isText bytes = true := by
  induction bytes with
  | nil => exact isText_encode ""
  | cons b rest ih =>
    obtain ⟨hb, hrest⟩ := List.forall_mem_cons.mp h
    have hsplit := isText_append_cons hb [] rest
    rw [List.nil_append] at hsplit
    rw [hsplit, ih hrest]
    rfl

end Text.Utf8

open Text.Utf8 (encode decode? isText upper)

/-- The name of a level, in letters of either case. -/
def Level.Spelled (level : Level) (value : List UInt8) : Prop :=
  value.map upper = encode level.name

def CacheFilter.Spelled (filter : CacheFilter) (value : List UInt8) : Prop :=
  value = encode filter.name

theorem find?_name_eq_some_iff {α : Type} {all : List α} {name : α → String}
    (hall : ∀ a, all.find? (name · == name a) = some a) {text : String} {a : α} :
    all.find? (name · == text) = some a ↔ name a = text := by
  constructor
  · intro h
    have hname := List.find?_some h
    exact eq_of_beq hname
  · rintro rfl
    exact hall a

theorem Level.ofName?_eq_some_iff {text : String} {level : Level} :
    ofName? text = some level ↔ level.name = text.map Char.toUpper := by
  apply find?_name_eq_some_iff
  intro level
  cases level <;> rfl

theorem CacheFilter.find?_eq_some_iff {text : String} {filter : CacheFilter} :
    all.find? (·.name == text) = some filter ↔ filter.name = text := by
  apply find?_name_eq_some_iff
  intro filter
  cases filter <;> rfl

theorem Level.isText_of_spelled {level : Level} {value : List UInt8} (h : level.Spelled value) :
    isText value = true := by
  have hname : (encode level.name).all (·.toNat < 128) = true := by
    cases level <;> decide +kernel
  apply Text.Utf8.isText_of_ascii
  intro b hb
  apply Nat.lt_of_not_le
  intro hle
  -- Such a byte is kept, so that it would be a byte of the name as well.
  have hmem : upper b ∈ encode level.name := h ▸ List.mem_map_of_mem hb
  rw [Text.Utf8.upper_of_le hle] at hmem
  have hlt := of_decide_eq_true (List.all_eq_true.mp hname b hmem)
  omega

namespace Environment

variable {α : Type}

/-- What a variable is read as: its value if that is text, and otherwise the default. -/
def readKnob (read : String → Except Failure α) (fallback : α) (setting : Option (List UInt8)) :
    Except Failure α :=
  match setting.bind decode? with
  | some text => read text
  | none => .ok fallback

/-- A variable makes the difference that it should: not set, it leaves the default; set to what
spells something, it gives that, and set to anything else, it is refused. -/
def Heeded (spells : α → List UInt8 → Prop) (fallback : α) (setting : Option (List UInt8))
    (result : Except Failure α) : Prop :=
  match setting with
  | none => result = .ok fallback
  | some value =>
    (∀ a, result = .ok a ↔ spells a value) ∧
      ∀ failure, result = .error failure → ∃ complaint, failure = .invalidArgument complaint

/-- Text is read as what it spells, and refused if it spells nothing. -/
structure Reads (read : String → Except Failure α) (spells : α → List UInt8 → Prop) : Prop where
  ok_iff : ∀ {text a}, read text = .ok a ↔ spells a (encode text)
  complains : ∀ {text failure}, read text = .error failure →
    ∃ complaint, failure = .invalidArgument complaint
  text : ∀ {a value}, spells a value → isText value = true

section Read

variable {read : String → Except Failure α} {spells : α → List UInt8 → Prop} {fallback : α}
  {value : List UInt8}

theorem readKnob_of_not_text (h : isText value = false) :
    readKnob read fallback (some value) = .ok fallback := by
  have hnone : decode? value = none :=
    Option.isNone_iff_eq_none.mp (Option.isSome_eq_false_iff.mp h)
  rw [readKnob, Option.bind_some, hnone]

theorem readKnob_encode (text : String) :
    readKnob read fallback (some (encode text)) = read text := by
  rw [readKnob, Option.bind_some, Text.Utf8.decode?_encode]

theorem Reads.heeded_of_isText (h : Reads read spells) (hvalue : isText value = true) :
    Heeded spells fallback (some value) (readKnob read fallback (some value)) := by
  obtain ⟨text, htext⟩ := Option.isSome_iff_exists.mp hvalue
  obtain rfl := Text.Utf8.encode_of_decode? htext
  rw [readKnob_encode]
  exact ⟨fun _ => h.ok_iff, fun _ => h.complains⟩

theorem Reads.not_heeded (h : Reads read spells) (hvalue : isText value = false) :
    ¬ Heeded spells fallback (some value) (readKnob read fallback (some value)) := by
  rintro ⟨hok, -⟩
  have hspelled : spells fallback value := (hok fallback).mp (readKnob_of_not_text hvalue)
  exact Bool.false_ne_true (hvalue.symm.trans (h.text hspelled))

theorem Reads.heeded_iff (h : Reads read spells) (setting : Option (List UInt8)) :
    Heeded spells fallback setting (readKnob read fallback setting) ↔
      ∀ value ∈ setting, isText value = true := by
  cases setting with
  | none =>
    constructor
    · intro _ value hvalue
      cases hvalue
    · intro _
      rfl
  | some value =>
    constructor
    · intro hheeded other hother
      cases hother
      cases hvalue : isText value with
      | true => rfl
      | false => exact absurd hheeded (h.not_heeded hvalue)
    · intro hall
      exact h.heeded_of_isText (hall value rfl)

end Read

def readLevel (text : String) : Except Failure Level :=
  match Level.ofName? text with
  | some level => .ok level
  | none => .error (.invalidArgument (.level levelVariable text))

theorem logLevel_reads : Reads readLevel Level.Spelled where
  ok_iff := by
    intro text level
    have hspelled : level.Spelled (encode text) ↔ Level.ofName? text = some level := by
      rw [Level.ofName?_eq_some_iff, Level.Spelled, ← Text.Utf8.encode_map_toUpper]
      constructor
      · intro h
        exact (Text.Utf8.encode_injective h).symm
      · intro h
        rw [h]
    rw [hspelled, readLevel]
    cases Level.ofName? text <;> simp
  complains := by
    intro text failure h
    unfold readLevel at h
    split at h
    · cases h
    · exact ⟨_, (Except.error.inj h).symm⟩
  text := Level.isText_of_spelled

theorem filter_reads : Reads CacheFilter.ofText CacheFilter.Spelled where
  ok_iff := by
    intro text filter
    have hspelled : filter.Spelled (encode text) ↔
        CacheFilter.all.find? (·.name == text) = some filter := by
      rw [CacheFilter.find?_eq_some_iff, CacheFilter.Spelled]
      constructor
      · intro h
        exact (Text.Utf8.encode_injective h).symm
      · rintro rfl
        rfl
    rw [hspelled, CacheFilter.ofText]
    cases CacheFilter.all.find? (·.name == text) <;> simp
  complains := CacheFilter.ofText_complains
  text := by
    rintro filter value rfl
    exact Text.Utf8.isText_encode filter.name

variable (environment : Environment)

theorem logLevel_eq :
    environment.logLevel = readKnob readLevel .warn (environment levelVariable) := by
  unfold logLevel text? readKnob
  cases (environment levelVariable).bind decode? <;> rfl

theorem filter_eq :
    environment.filter = readKnob CacheFilter.ofText default (environment filterVariable) := by
  unfold filter text? readKnob
  cases (environment filterVariable).bind decode? <;> rfl

theorem map_filter_settings {pageBytes : UInt64} {size : PageSize}
    (h : PageSize.ofBytes pageBytes = .ok size) (pageCount : UInt64) :
    (environment.settings pageBytes pageCount).map Settings.filter = environment.filter := by
  rw [environment.settings_of_size h pageCount]
  cases environment.filter <;> rfl

theorem settings_of_page_error {pageBytes : UInt64} {failure : Failure}
    (h : PageSize.ofBytes pageBytes = .error failure) (pageCount : UInt64) :
    environment.settings pageBytes pageCount = .error failure := by
  unfold settings
  rw [h]
  rfl

/-- A variable is heeded if and only if it is not set to anything but text. Set to other bytes, it
leaves the default, as if it were not set. So it is for the log level, and for the filter on
every machine with a page size that is accepted; with another one all settings are refused. -/
theorem knobs_heeded_iff_text (environment : Environment) (pageBytes pageCount : UInt64) :
    let level := environment levelVariable
    let filter := environment filterVariable
    let filtered := (environment.settings pageBytes pageCount).map Settings.filter
    (Heeded Level.Spelled .warn level environment.logLevel ↔
      ∀ value ∈ level, isText value = true) ∧
    (∀ value ∈ level, isText value = false → environment.logLevel = .ok .warn) ∧
    (∀ size, PageSize.ofBytes pageBytes = .ok size →
      (Heeded CacheFilter.Spelled default filter filtered ↔
        ∀ value ∈ filter, isText value = true) ∧
      ∀ value ∈ filter, isText value = false → filtered = .ok default) ∧
    ∀ failure, PageSize.ofBytes pageBytes = .error failure →
      environment.settings pageBytes pageCount = .error failure ∧
        failure = .invalidArgument (.pageSize pageBytes) := by
  intro level filter filtered
  refine ⟨?_, ?_, ?_, ?_⟩
  · rw [logLevel_eq]
    exact logLevel_reads.heeded_iff level
  · intro value hvalue hother
    have hset : environment levelVariable = some value := hvalue
    rw [logLevel_eq, hset]
    exact readKnob_of_not_text hother
  · intro size hsize
    have hfiltered : filtered = readKnob CacheFilter.ofText default filter :=
      (environment.map_filter_settings hsize pageCount).trans environment.filter_eq
    rw [hfiltered]
    refine ⟨filter_reads.heeded_iff filter, ?_⟩
    intro value hvalue hother
    have hset : filter = some value := hvalue
    rw [hset]
    exact readKnob_of_not_text hother
  · intro failure hfailure
    refine ⟨environment.settings_of_page_error hfailure pageCount, ?_⟩
    unfold PageSize.ofBytes at hfailure
    split at hfailure
    · cases hfailure
    · exact (Except.error.inj hfailure).symm

/-- A level in mixed case is heeded, and a filter with a stray byte behind its name is not. -/
theorem mixed_knobs_heeded :
    let size : PageSize := ⟨0x1000, 12, rfl⟩
    let environment : Environment := fun name =>
      if name = levelVariable then some (encode "dEbug")
      else if name = filterVariable then some (encode "mapped-to-disk" ++ [0xFF])
      else none
    PageSize.ofBytes size.bytes = .ok size ∧
      isText (encode "dEbug") = true ∧ isText (encode "mapped-to-disk" ++ [0xFF]) = false ∧
      Heeded Level.Spelled .warn (some (encode "dEbug")) environment.logLevel ∧
      (environment.settings size.bytes 16).map Settings.filter = .ok .mappedNotAnon := by
  intro size environment
  have hsize : PageSize.ofBytes size.bytes = .ok size := PageSize.ofBytes_eq_ok_iff.mpr rfl
  have hlevel : environment levelVariable = some (encode "dEbug") := rfl
  have hfilter : environment filterVariable = some (encode "mapped-to-disk" ++ [0xFF]) := by
    decide +kernel
  have htext : isText (encode "dEbug") = true := Text.Utf8.isText_encode "dEbug"
  have hother : isText (encode "mapped-to-disk" ++ [0xFF]) = false := by decide +kernel
  obtain ⟨hheeded, -, hfiltered, -⟩ := knobs_heeded_iff_text environment size.bytes 16
  refine ⟨hsize, htext, hother, ?_, (hfiltered size hsize).2 _ hfilter hother⟩
  rw [hlevel] at hheeded
  apply hheeded.mpr
  intro value hvalue
  cases hvalue
  exact htext

/-- With a stray byte behind their names, a level and a filter are passed over without a word: the
log is limited as by default, and the frames are those of another filter. -/
theorem stray_bytes_passed_over :
    let environment : Environment := fun name =>
      if name = levelVariable then some (encode "debug" ++ [0xFF])
      else if name = filterVariable then some (encode "mapped-to-disk" ++ [0xFF])
      else none
    let filtered := (environment.settings 0x1000 16).map Settings.filter
    environment.logLevel = .ok .warn ∧ filtered = .ok .mappedNotAnon ∧
      ¬ Heeded Level.Spelled .warn (environment levelVariable) environment.logLevel ∧
      ¬ Heeded CacheFilter.Spelled default (environment filterVariable) filtered := by
  intro environment filtered
  have hlevel : environment levelVariable = some (encode "debug" ++ [0xFF]) := rfl
  have hfilter : environment filterVariable = some (encode "mapped-to-disk" ++ [0xFF]) := by
    decide +kernel
  have hlevelOther : isText (encode "debug" ++ [0xFF]) = false := by decide +kernel
  have hfilterOther : isText (encode "mapped-to-disk" ++ [0xFF]) = false := by decide +kernel
  have hsize : PageSize.ofBytes 0x1000 = .ok ⟨0x1000, 12, rfl⟩ :=
    PageSize.ofBytes_eq_ok_iff.mpr rfl
  have hfiltered : filtered = readKnob CacheFilter.ofText default (environment filterVariable) :=
    (environment.map_filter_settings hsize 16).trans environment.filter_eq
  rw [logLevel_eq, hfiltered, hlevel, hfilter]
  exact ⟨readKnob_of_not_text hlevelOther, readKnob_of_not_text hfilterOther,
    logLevel_reads.not_heeded hlevelOther, filter_reads.not_heeded hfilterOther⟩

end Environment

end FrameScan
