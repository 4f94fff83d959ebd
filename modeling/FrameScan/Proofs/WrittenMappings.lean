import FrameScan.Proofs.AddressForm
import FrameScan.Proofs.Alignment
import FrameScan.Proofs.ListedLines
import FrameScan.Proofs.PathNames

/-!
# Mappings read back

What is read of a listing of mappings that was written field by field. The path name of a
mapping may have spaces in it, so it is found by the spaces of the fields before it;
`maps_read_back` says that each mapping comes back as it was, and nothing else with it.
-/

namespace FrameScan

namespace Source.Maps

/-- A field of a line: a space ends it, so there is none in it. -/
structure Field where
  chars : List Char
  unspaced : ' ' ∉ chars := by decide
  unbroken : '\n' ∉ chars := by decide

namespace Field

def row (fields : List Field) : List Char :=
  fields.flatMap fun field => field.chars ++ [' ']

theorem row_cons (field : Field) (fields : List Field) (rest : List Char) :
    row (field :: fields) ++ rest = field.chars ++ ' ' :: (row fields ++ rest) := by
  simp [row]

theorem unbroken_row (fields : List Field) : '\n' ∉ row fields := by
  intro hmem
  obtain ⟨field, -, hfield⟩ := List.mem_flatMap.mp hmem
  rcases List.mem_append.mp hfield with hchars | hspace
  · exact field.unbroken hchars
  · cases List.mem_singleton.mp hspace

theorem getLast?_row (fields : List Field) : (row fields).getLast? ≠ some '\r' := by
  rcases List.eq_nil_or_concat fields with rfl | ⟨init, field, rfl⟩
  · exact nofun
  · rw [List.concat_eq_append, row, List.flatMap_append, List.flatMap_singleton,
      ← List.append_assoc, List.getLast?_concat]
    exact nofun

theorem afterSpaces_row (fields : List Field) (rest : List Char) :
    afterSpaces fields.length (row fields ++ rest) = some rest := by
  induction fields with
  | nil => rfl
  | cons field fields ih =>
    rw [row_cons, List.length_cons, afterSpaces, dropWhile_unspaced field.unspaced]
    exact ih

end Field

/-- A mapping to be listed: pages with a path name, which is empty or begins with a character
other than white space, and four more fields. Spaces may be put before the path name. -/
structure Mapping (size : PageSize) where
  span : Span
  paged : span.Paged size
  width : Nat
  permissions : Field
  offset : Field
  device : Field
  inode : Field
  padding : Nat
  path_head : span.label.toList.head?.any Text.isBlank = false := by decide
  path_unbroken : '\n' ∉ span.label.toList := by decide
  path_last : span.label.toList.getLast? ≠ some '\r' := by decide

namespace Mapping

variable {size : PageSize} (m : Mapping size)

def range : AddressRange :=
  ⟨m.span.start, m.span.stop⟩

def addresses : Field where
  chars := m.range.written m.width
  unspaced hmem := absurd (AddressRange.mem_written hmem).1 (by decide)
  unbroken hmem := absurd (AddressRange.mem_written hmem).1 (by decide)

def fields : List Field :=
  [m.addresses, m.permissions, m.offset, m.device, m.inode]

def chars : List Char :=
  Field.row m.fields ++ (List.replicate m.padding ' ' ++ m.span.label.toList)

/-- The line of a mapping. -/
def text : String :=
  String.ofList m.chars

theorem toList_text : m.text.toList = m.chars :=
  String.toList_ofList

theorem unbroken_text : '\n' ∉ m.text.toList := by
  intro hmem
  rw [toList_text] at hmem
  rcases List.mem_append.mp hmem with hrow | hrest
  · exact Field.unbroken_row m.fields hrow
  · rcases List.mem_append.mp hrest with hpadding | hpath
    · cases List.eq_of_mem_replicate hpadding
    · exact m.path_unbroken hpath

theorem dropReturn_chars : Text.dropReturn m.chars = m.chars := by
  have hpadding : (List.replicate m.padding ' ').getLast? ≠ some '\r' := by
    intro hlast
    cases List.eq_of_mem_replicate (List.mem_of_getLast? hlast)
  rw [chars, Text.dropReturn_append (Field.getLast?_row _), Text.dropReturn_append hpadding,
    Text.dropReturn_of_getLast? m.path_last]

theorem form_chars : AddressRange.Form m.chars m.range := by
  rw [chars, fields, Field.row_cons]
  apply AddressRange.form_written
  rintro c ⟨⟩
  decide

theorem label_chars : label m.chars = m.span.label := by
  have hfields : afterSpaces 5 m.chars =
      some (List.replicate m.padding ' ' ++ m.span.label.toList) :=
    Field.afterSpaces_row m.fields _
  have hhead : ∀ c ∈ m.span.label.toList.head?, Text.isBlank c = false := by
    intro c hc
    have hany := m.path_head
    rwa [Option.mem_def.mp hc] at hany
  have hpath := Text.trimStart_spaces m.padding hhead
  rw [label, hfields]
  exact (congrArg String.ofList hpath).trans String.ofList_toList

theorem event_text : event size (.ok m.text) = .span m.span := by
  rw [event_eq_span_iff, toList_text]
  refine ⟨m.range, m.form_chars, ?_⟩
  rw [label_chars, range, size.floor_of_dvd m.paged.start, size.ceil_of_dvd m.paged.stop,
    Span.ofBounds, dif_pos m.span.start_le_stop]

end Mapping

end Source.Maps

namespace Source

open Maps

/-- Mappings of whole pages come back from their listing as they were, in order, whatever the
chunks are in which it comes. There are no failures and no notices. -/
theorem maps_read_back (settings : Settings) (mappings : List (Mapping settings.pageSize))
    (listing : Listing) (h : listing.Delivers (mappings.map Mapping.text)) :
    maps settings listing = mappings.map fun m => .span m.span := by
  rw [maps, h.lines_eq_map Mapping.unbroken_text, List.map_map]
  apply List.map_congr_left
  intro m _
  rw [Function.comp_apply, m.toList_text, m.dropReturn_chars, ← Mapping.text, m.event_text]

/-- A file that was deleted, with spaces in its name and before it. -/
def deletedFile : Mapping ⟨0x1000, 12, rfl⟩ where
  span := ⟨0x4000, 0x5000, "/tmp/my file (deleted)", by decide⟩
  paged := ⟨by decide, by decide, by decide⟩
  width := 8
  permissions := { chars := "rw-s".toList }
  offset := { chars := "00000000".toList }
  device := { chars := "00:05".toList }
  inode := { chars := "1234".toList }
  padding := 7

/-- A mapping without a name at the top of the address space, with addresses of sixteen digits. -/
def topmostMapping : Mapping ⟨0x1000, 12, rfl⟩ where
  span := ⟨0xFFFFFFFFFF600000, 0xFFFFFFFFFFFFF000, "", by decide⟩
  paged := ⟨by decide, by decide, by decide⟩
  width := 0
  permissions := { chars := "--xp".toList }
  offset := { chars := "0".toList }
  device := { chars := "00:00".toList }
  inode := { chars := "0".toList }
  padding := 0

def mappingListing : Listing :=
  let bytes := Listing.written ([deletedFile, topmostMapping].map Mapping.text)
  [.bytes (bytes.take 50), .fault .interrupted, .bytes (bytes.drop 50)]

theorem deleted_file_read_back :
    let settings : Settings := { pageSize := ⟨0x1000, 12, rfl⟩, pageCount := 16 }
    mappingListing.Delivers ([deletedFile, topmostMapping].map Mapping.text) ∧
      maps settings mappingListing =
        [.span ⟨0x4000, 0x5000, "/tmp/my file (deleted)", by decide⟩,
          .span ⟨0xFFFFFFFFFF600000, 0xFFFFFFFFFFFFF000, "", by decide⟩] := by
  intro settings
  have hdelivers : mappingListing.Delivers ([deletedFile, topmostMapping].map Mapping.text) :=
    ⟨by decide +kernel, by decide +kernel⟩
  exact ⟨hdelivers, maps_read_back settings [deletedFile, topmostMapping] _ hdelivers⟩

end Source

end FrameScan
