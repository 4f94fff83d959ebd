import FrameScan.Proofs.ReadOffsets
import FrameScan.Proofs.WordFields

/-!
# Reads of fixed contents

What a positional read of fixed contents puts into a buffer, and what a table of such contents
has for each page. `readInto?` is the read by parts that are refused out of range, and none ever
is. A fetch is a read into eight bytes, whatever these were before, so that a table made of words
gives back these words; `contents_read_exactly` puts this together.
-/

namespace FrameScan

namespace Content

def part? (bytes : List UInt8) (first last : Nat) : Option (List UInt8) :=
  if first ≤ last ∧ last ≤ bytes.length then some ((bytes.drop first).take (last - first))
  else none

/-- A read into a buffer by parts, each refused where it would reach out of range. -/
def readInto? (content : Content) (offset : UInt64) (buffer : List UInt8) :
    Option (Nat × List UInt8) :=
  if content.toList.length ≤ offset.toNat then some (0, buffer)
  else do
    let available ← part? content.toList offset.toNat content.toList.length
    let count := min available.length buffer.length
    let read ← part? available 0 count
    let kept ← part? buffer count buffer.length
    return (count, read ++ kept)

theorem part?_to_end {bytes : List UInt8} {first : Nat} (h : first ≤ bytes.length) :
    part? bytes first bytes.length = some (bytes.drop first) := by
  rw [part?, if_pos ⟨h, Nat.le_refl _⟩, ← List.length_drop, List.take_length]

theorem part?_from_start {bytes : List UInt8} {last : Nat} (h : last ≤ bytes.length) :
    part? bytes 0 last = some (bytes.take last) :=
  if_pos ⟨Nat.zero_le _, h⟩

variable (content : Content) (offset : UInt64)

theorem length_readAt (count : Nat) :
    (content.readAt offset count).length = min count (content.toList.length - offset.toNat) := by
  rw [readAt_eq, List.length_take, List.length_drop]

theorem readInto?_eq (buffer : List UInt8) :
    content.readInto? offset buffer = some (content.readInto offset buffer) := by
  have hlength := content.length_readAt offset buffer.length
  unfold readInto?
  split
  next hpast =>
    have hnone : content.readAt offset buffer.length = [] := by
      apply List.eq_nil_of_length_eq_zero
      omega
    rw [readInto, hnone]
    rfl
  next hwithin =>
    have hoffset : offset.toNat ≤ content.toList.length := by omega
    have hcount : min (content.toList.drop offset.toNat).length buffer.length =
        (content.readAt offset buffer.length).length := by
      rw [hlength, List.length_drop, Nat.min_comm]
    have hread : (content.toList.drop offset.toNat).take
        (content.readAt offset buffer.length).length = content.readAt offset buffer.length := by
      rw [readAt_eq, List.length_take, ← List.take_take, List.take_length]
    simp only [part?_to_end hoffset, Option.bind_eq_bind, Option.bind_some, hcount]
    rw [part?_from_start (by rw [← hcount]; exact Nat.min_le_left _ _), hread,
      part?_to_end (by rw [← hcount]; exact Nat.min_le_right _ _)]
    rfl

theorem readInto_fst (buffer : List UInt8) :
    (content.readInto offset buffer).1 =
      min buffer.length (content.toList.length - offset.toNat) :=
  content.length_readAt offset buffer.length

theorem getElem?_readInto (buffer : List UInt8) (i : Nat) :
    (content.readInto offset buffer).2[i]? =
      if i < (content.readInto offset buffer).1 then content.toList[offset.toNat + i]?
      else buffer[i]? := by
  have hcount := content.readInto_fst offset buffer
  have hsnd : (content.readInto offset buffer).2 =
      content.readAt offset buffer.length ++ buffer.drop (content.readInto offset buffer).1 := rfl
  have hfst : (content.readInto offset buffer).1 =
      (content.readAt offset buffer.length).length := rfl
  rw [hsnd, List.getElem?_append, ← hfst]
  split
  next hread =>
    rw [readAt_eq, List.getElem?_take_of_lt (by omega), List.getElem?_drop]
  next hkept =>
    rw [List.getElem?_drop, Nat.add_sub_cancel' (Nat.le_of_not_lt hkept)]

end Content

namespace EntryTable

section Fetched

variable {table : EntryTable} {earlier : Nat} {index : UInt64} {bytes : List UInt8}

theorem fetch_eq_entry_iff_read (h : table.read earlier (offset index) = .ok bytes)
    {entry : Entry} : table.fetch earlier index = .ok (.entry entry) ↔ bytes = entry.bytes := by
  by_cases hfull : bytes.length = 8
  · rw [fetch_of_full h hfull]
    constructor
    · intro hentry
      cases hentry
      rfl
    · rintro rfl
      rfl
  · rw [fetch_of_short h hfull]
    constructor
    · intro hentry
      cases hentry
    · rintro rfl
      exact absurd entry.length_eq hfull

theorem fetch_eq_short_iff_read (h : table.read earlier (offset index) = .ok bytes) {n : Nat} :
    table.fetch earlier index = .ok (.short n) ↔ bytes.length ≠ 8 ∧ n = bytes.length := by
  by_cases hfull : bytes.length = 8
  · rw [fetch_of_full h hfull]
    constructor
    · intro hshort
      cases hshort
    · rintro ⟨hne, -⟩
      exact absurd hfull hne
  · rw [fetch_of_short h hfull]
    constructor
    · intro hshort
      cases hshort
      exact ⟨hfull, rfl⟩
    · rintro ⟨-, rfl⟩
      rfl

end Fetched

variable {path : Path} {content : Content} {earlier : Nat} {index : UInt64}

theorem fetch_eq_entry_iff_readInto {buffer : List UInt8} (h : buffer.length = 8) {entry : Entry} :
    (ofBytes path content).fetch earlier index = .ok (.entry entry) ↔
      content.readInto (offset index) buffer = (8, entry.bytes) := by
  have hread : (ofBytes path content).read earlier (offset index) =
      .ok (content.readAt (offset index) 8) := rfl
  rw [fetch_eq_entry_iff_read hread, Content.readInto, h]
  constructor
  · intro hbytes
    rw [hbytes, entry.length_eq, List.drop_eq_nil_of_le (Nat.le_of_eq h), List.append_nil]
  · intro hbuffer
    obtain ⟨hfull, hbytes⟩ := Prod.mk.inj hbuffer
    rw [hfull, List.drop_eq_nil_of_le (Nat.le_of_eq h), List.append_nil] at hbytes
    exact hbytes

theorem read_ofBytes_of_lt (hindex : index.toNat < reach) :
    (ofBytes path content).read earlier (offset index) =
      .ok ((content.toList.drop (8 * index.toNat)).take 8) := by
  rw [← toNat_offset_of_lt hindex, ← Content.readAt_eq]
  rfl

theorem fetch_eq_entry_iff (hindex : index.toNat < reach) {entry : Entry} :
    (ofBytes path content).fetch earlier index = .ok (.entry entry) ↔
      8 * index.toNat + 8 ≤ content.toList.length ∧
        entry.bytes = (content.toList.drop (8 * index.toNat)).take 8 := by
  rw [fetch_eq_entry_iff_read (read_ofBytes_of_lt hindex)]
  constructor
  · intro hbytes
    have hlength := congrArg List.length hbytes
    rw [List.length_take, List.length_drop, entry.length_eq] at hlength
    exact ⟨by omega, hbytes.symm⟩
  · rintro ⟨-, hbytes⟩
    exact hbytes.symm

theorem fetch_eq_short_iff (hindex : index.toNat < reach) {n : Nat} :
    (ofBytes path content).fetch earlier index = .ok (.short n) ↔
      content.toList.length < 8 * index.toNat + 8 ∧
        n = content.toList.length - 8 * index.toNat := by
  rw [fetch_eq_short_iff_read (read_ofBytes_of_lt hindex), List.length_take, List.length_drop]
  omega

/-- The word that a table has for a page, if it has an entry for it. -/
def word? (table : EntryTable) (earlier : Nat) (index : UInt64) : Option UInt64 :=
  match table.fetch earlier index with
  | .ok (.entry entry) => some entry.word
  | _ => none

def words (table : EntryTable) (count : Nat) : List UInt64 :=
  (List.range count).filterMap fun i => table.word? i (UInt64.ofNat i)

section Encoded

variable {words : List UInt64} {rest : List UInt8}

theorem length_encoded (words : List UInt64) :
    (words.flatMap Word.toBytes).length = 8 * words.length := by
  induction words with
  | nil => rfl
  | cons word words ih =>
    rw [List.flatMap_cons, List.length_append, Word.length_toBytes, ih, List.length_cons]
    omega

theorem drop_encoded {i : Nat} (h : i ≤ words.length) :
    (words.flatMap Word.toBytes ++ rest).drop (8 * i) =
      (words.drop i).flatMap Word.toBytes ++ rest := by
  induction words generalizing i with
  | nil =>
    obtain rfl := Nat.le_zero.mp h
    rfl
  | cons word words ih =>
    cases i with
    | zero => rfl
    | succ i =>
      rw [Nat.mul_succ, Nat.add_comm, ← List.drop_drop, List.flatMap_cons, List.append_assoc,
        List.drop_left' (Word.length_toBytes word)]
      exact ih (Nat.le_of_succ_le_succ h)

theorem word?_encoded (hcontent : content.toList = words.flatMap Word.toBytes ++ rest)
    (hrest : rest.length < 8) (hindex : index.toNat < reach) :
    (ofBytes path content).word? earlier index = words[index.toNat]? := by
  have hlength : content.toList.length = 8 * words.length + rest.length := by
    rw [hcontent, List.length_append, length_encoded]
  by_cases hlt : index.toNat < words.length
  · have hbytes : (content.toList.drop (8 * index.toNat)).take 8 =
        Word.toBytes words[index.toNat] := by
      rw [hcontent, drop_encoded (Nat.le_of_lt hlt), List.drop_eq_getElem_cons hlt,
        List.flatMap_cons, List.append_assoc, List.take_left' (Word.length_toBytes _)]
    have hfetch : (ofBytes path content).fetch earlier index =
        .ok (.entry ⟨Word.toBytes words[index.toNat], Word.length_toBytes _⟩) :=
      (fetch_eq_entry_iff hindex).mpr ⟨by omega, hbytes.symm⟩
    rw [word?, hfetch, List.getElem?_eq_getElem hlt]
    exact congrArg some (Word.ofBytes_toBytes _)
  · have hfetch : (ofBytes path content).fetch earlier index =
        .ok (.short (content.toList.length - 8 * index.toNat)) :=
      (fetch_eq_short_iff hindex).mpr ⟨by omega, rfl⟩
    rw [word?, hfetch, List.getElem?_eq_none (Nat.le_of_not_lt hlt)]

theorem filterMap_range_eq_take {found : Nat → Option UInt64} {count : Nat}
    (h : ∀ i < count, found i = words[i]?) :
    (List.range count).filterMap found = words.take count := by
  induction count with
  | zero => rfl
  | succ count ih =>
    have hlast : [count].filterMap found = words[count]?.toList := by
      rw [List.filterMap_cons, List.filterMap_nil, h count (Nat.lt_succ_self count)]
      cases words[count]? <;> rfl
    rw [List.range_succ, List.filterMap_append, ih fun i hi => h i (Nat.lt_succ_of_lt hi), hlast,
      List.take_add_one]

theorem words_encoded (hcontent : content.toList = words.flatMap Word.toBytes ++ rest)
    (hrest : rest.length < 8) {count : Nat} (hcount : count ≤ reach) :
    (ofBytes path content).words count = words.take count := by
  apply filterMap_range_eq_take
  intro i hi
  have hlt : i < reach := Nat.lt_of_lt_of_le hi hcount
  have hindex : (UInt64.ofNat i).toNat = i := by
    apply UInt64.toNat_ofNat_of_lt'
    exact Nat.lt_of_lt_of_le hlt (Nat.div_le_self _ _)
  rw [word?_encoded hcontent hrest (by rwa [hindex]), hindex]

end Encoded

/-- A read at any offset never reaches out of range. It fills as much of the buffer as there are
bytes from the offset on, and leaves the rest as it was. A fetch is of an entry if and only if
such a read fills eight bytes, whatever these were before. As far as offsets are not reduced, the
pages with all eight bytes in the table have an entry, and of another page it is said how many
there are. So a table of words, with less than a word behind them, has just these words. -/
theorem contents_read_exactly (path : Path) (content : Content) :
    (∀ offset buffer,
      let read := content.readInto offset buffer
      content.readInto? offset buffer = some read ∧
      read.1 = min buffer.length (content.toList.length - offset.toNat) ∧
      ∀ i, read.2[i]? = if i < read.1 then content.toList[offset.toNat + i]? else buffer[i]?) ∧
    (∀ earlier index entry buffer, buffer.length = 8 →
      ((ofBytes path content).fetch earlier index = .ok (.entry entry) ↔
        content.readInto (offset index) buffer = (8, entry.bytes))) ∧
    (∀ earlier (index : UInt64), index.toNat < 2 ^ 61 →
      (∀ entry, (ofBytes path content).fetch earlier index = .ok (.entry entry) ↔
        8 * index.toNat + 8 ≤ content.toList.length ∧
          entry.bytes = (content.toList.drop (8 * index.toNat)).take 8) ∧
      ∀ n, (ofBytes path content).fetch earlier index = .ok (.short n) ↔
        content.toList.length < 8 * index.toNat + 8 ∧
          n = content.toList.length - 8 * index.toNat) ∧
    ∀ (words : List UInt64) rest count,
      content.toList = words.flatMap Word.toBytes ++ rest → rest.length < 8 → count ≤ 2 ^ 61 →
        (ofBytes path content).words count = words.take count := by
  refine ⟨?_, ?_, ?_, ?_⟩
  · intro offset buffer read
    exact ⟨content.readInto?_eq offset buffer, content.readInto_fst offset buffer,
      content.getElem?_readInto offset buffer⟩
  · intro earlier index entry buffer hbuffer
    exact fetch_eq_entry_iff_readInto hbuffer
  · intro earlier index hindex
    exact ⟨fun _ => fetch_eq_entry_iff hindex, fun _ => fetch_eq_short_iff hindex⟩
  · intro words rest count hcontent hrest hcount
    exact words_encoded hcontent hrest hcount

/-- A table of one word and half of another. A read into a longer buffer leaves the rest of it,
and a read far past the end all of it. Only the first page has an entry. -/
theorem torn_table_read :
    let words : List UInt64 := [0x0807060504030201]
    let rest : List UInt8 := [9, 10, 11, 12]
    let content : Content := .ofList (words.flatMap Word.toBytes ++ rest)
    let table : EntryTable := ofBytes (.ofText "mem") content
    let buffer : List UInt8 := List.replicate 8 0xEE
    (buffer.length = 8 ∧ (1 : UInt64).toNat < 2 ^ 61 ∧ rest.length < 8 ∧ 3 ≤ 2 ^ 61) ∧
      content.readInto? 10 buffer = some (2, [11, 12, 0xEE, 0xEE, 0xEE, 0xEE, 0xEE, 0xEE]) ∧
      content.readInto? 0xFFFFFFFFFFFFFFFF buffer = some (0, buffer) ∧
      table.fetch 0 0 = .ok (.entry ⟨Word.toBytes words[0], Word.length_toBytes _⟩) ∧
      table.fetch 1 1 = .ok (.short 4) ∧ table.words 3 = words := by
  intro words rest content table buffer
  have hcontent : content.toList = words.flatMap Word.toBytes ++ rest := by
    simp [content, Content.ofList, Content.toList]
  obtain ⟨hread, hfilled, hfetched, hwords⟩ := contents_read_exactly (.ofText "mem") content
  have hbuffer : buffer.length = 8 := List.length_replicate
  have hend : content.readInto 10 buffer = (2, [11, 12, 0xEE, 0xEE, 0xEE, 0xEE, 0xEE, 0xEE]) := by
    decide +kernel
  have hpast : content.readInto 0xFFFFFFFFFFFFFFFF buffer = (0, buffer) := by decide +kernel
  have hfirst : content.readInto (offset 0) buffer = (8, Word.toBytes words[0]) := by
    decide +kernel
  have hindex : (1 : UInt64).toNat < 2 ^ 61 := by decide
  refine ⟨⟨hbuffer, hindex, by decide, by decide⟩, hend ▸ (hread 10 buffer).1,
    hpast ▸ (hread 0xFFFFFFFFFFFFFFFF buffer).1, (hfilled 0 0 _ buffer hbuffer).mpr hfirst, ?_, ?_⟩
  · rw [(hfetched 1 1 hindex).2, hcontent]
    decide
  · exact hwords words rest 3 hcontent (by decide) (by decide)

end EntryTable

end FrameScan
