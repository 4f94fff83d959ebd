import FrameScan.Source.Iomem
import FrameScan.Source.Maps
import FrameScan.Proofs.Numerals
import FrameScan.Proofs.Stream

/-!
# Line feeds

Where the line feeds of a stream come from. A text has as many as its bytes, the text
shown for a path has as many as the path, and the lines of a listing have none, so no label
of a span has one. A stream of lines without line feeds is divided at them into its lines.
-/

namespace FrameScan

open Listing (lineFeed)

namespace Text.Utf8

theorem eq_newline_iff (c : Char) : c = '\n' ↔ c.toNat = 10 := by
  rw [Char.ext_iff, ← UInt32.toNat_inj]
  rfl

theorem utf8EncodeChar_of_le {c : Char} (h : c.toNat ≤ 127) :
    String.utf8EncodeChar c = [UInt8.ofNat c.toNat] := by
  unfold String.utf8EncodeChar
  exact if_pos h

theorem le_of_mem_utf8EncodeChar {c : Char} (h : 127 < c.toNat) {b : UInt8}
    (hb : b ∈ String.utf8EncodeChar c) : 128 ≤ b.toNat := by
  have hmod (n : Nat) : (UInt8.ofNat n).toNat = n % 256 := UInt8.toNat_ofNat'
  unfold String.utf8EncodeChar at hb
  dsimp only at hb
  rw [Char.toNat_val, if_neg (Nat.not_le.mpr h)] at hb
  split at hb
  · simp only [List.mem_cons, List.not_mem_nil, or_false] at hb
    rcases hb with rfl | rfl <;> rw [hmod] <;> omega
  · split at hb
    · simp only [List.mem_cons, List.not_mem_nil, or_false] at hb
      rcases hb with rfl | rfl | rfl <;> rw [hmod] <;> omega
    · simp only [List.mem_cons, List.not_mem_nil, or_false] at hb
      rcases hb with rfl | rfl | rfl | rfl <;> rw [hmod] <;> omega

theorem count_utf8EncodeChar (c : Char) :
    (String.utf8EncodeChar c).count lineFeed = if c = '\n' then 1 else 0 := by
  by_cases h : c.toNat ≤ 127
  · have hbyte : UInt8.ofNat c.toNat = lineFeed ↔ c.toNat = 10 := by
      rw [← UInt8.toNat_inj, UInt8.toNat_ofNat_of_lt' (show c.toNat < UInt8.size by
        rw [show UInt8.size = 256 from rfl]; omega)]
      rfl
    simp only [utf8EncodeChar_of_le h, List.count_singleton, beq_iff_eq, hbyte, eq_newline_iff]
  · have hnot : lineFeed ∉ String.utf8EncodeChar c := by
      intro hmem
      have hle := le_of_mem_utf8EncodeChar (Nat.lt_of_not_le h) hmem
      exact absurd hle (by decide)
    rw [List.count_eq_zero.mpr hnot, if_neg (by rw [eq_newline_iff]; omega)]

theorem encode_append (first second : String) :
    encode (first ++ second) = encode first ++ encode second := by
  simp [encode, String.toByteArray_append, ByteArray.data_append]

theorem encode_eq_flatMap (text : String) :
    encode text = text.toList.flatMap String.utf8EncodeChar := by
  conv => lhs; rw [← String.ofList_toList (s := text)]
  rw [encode, String.toByteArray_ofList, List.utf8Encode, List.data_toByteArray]

theorem count_encode (text : String) :
    (encode text).count lineFeed = text.toList.count '\n' := by
  rw [encode_eq_flatMap]
  induction text.toList with
  | nil => rfl
  | cons c rest ih =>
    rw [List.flatMap_cons, List.count_append, ih, count_utf8EncodeChar, List.count_cons,
      Nat.add_comm]
    simp only [beq_iff_eq]

theorem lineFeed_not_mem_encode {text : String} (h : '\n' ∉ text.toList) :
    lineFeed ∉ encode text := by
  rw [← List.count_eq_zero, count_encode]
  exact List.count_eq_zero.mpr h

theorem encode_of_decode? {bytes : List UInt8} {text : String} (h : decode? bytes = some text) :
    encode text = bytes := by
  unfold decode? String.fromUTF8? at h
  split at h
  next hvalid =>
    cases h
    simp [encode, String.fromUTF8]
  next => cases h

theorem decode?_encode (text : String) : decode? (encode text) = some text := by
  have hbytes : (encode text).toByteArray = text.toByteArray := by
    ext1
    rw [List.data_toByteArray, encode]
  unfold decode? String.fromUTF8?
  rw [dif_pos (by rw [hbytes]; exact text.isValidUTF8)]
  congr 1
  exact String.toByteArray_inj.mp hbytes

theorem ofNat_eq_newline_iff (n : Nat) : Char.ofNat n = '\n' ↔ n = 10 := by
  by_cases h : n.isValidChar
  · have hvalue : (Char.ofNat n).toNat = n := by
      rw [Char.ofNat, dif_pos h]
      rfl
    rw [eq_newline_iff, hvalue]
  · constructor
    · intro hnul
      rw [Char.ofNat, dif_neg h] at hnul
      exact absurd hnul (by decide)
    · rintro rfl
      exact absurd (by decide) h

namespace Progress

/-- A character under way whose bits are not all known to be zero: it is not a line feed. -/
def Sound : Progress → Prop
  | .fresh => True
  | .within value low _ more => 0x80 ≤ low.toNat ∧ (value = 0 → 0x80 < low.toNat ∧ more ≠ 0)

theorem sound_of_ofLead? {b : UInt8} {progress : Progress} (h : ofLead? b = some progress) :
    progress.Sound := by
  unfold ofLead? at h
  repeat' split at h
  all_goals cases h
  all_goals simp [Sound, UInt8.le_iff_toNat_le] at *
  all_goals omega

theorem first_spec (b : UInt8) :
    (first b).1.count '\n' = (if b = lineFeed then 1 else 0) ∧ (first b).2.Sound := by
  have hfeed : b = lineFeed ↔ b.toNat = 10 := UInt8.toNat_inj.symm
  unfold first
  split
  next hlt =>
    refine ⟨?_, trivial⟩
    simp only [List.count_singleton, beq_iff_eq, ofNat_eq_newline_iff, hfeed]
  next hge =>
    have hne : ¬ b = lineFeed := by
      rintro rfl
      exact hge (by decide)
    rw [if_neg hne]
    split
    next progress hlead => exact ⟨rfl, sound_of_ofLead? hlead⟩
    next => exact ⟨by decide, trivial⟩

theorem next_spec {progress : Progress} (h : progress.Sound) (b : UInt8) :
    (progress.next b).1.count '\n' = (if b = lineFeed then 1 else 0) ∧
      (progress.next b).2.Sound := by
  cases progress with
  | fresh => exact first_spec b
  | within value low high more =>
    obtain ⟨hlow, hzero⟩ := h
    unfold next
    dsimp only
    split
    next hin =>
      have hle := UInt8.le_iff_toNat_le.mp hin.1
      have hne : ¬ b = lineFeed := by
        rintro rfl
        exact absurd (Nat.le_trans hlow hle) (by decide)
      have hvalue : 64 * value + (b.toNat - 0x80) ≠ 0 := by
        intro h0
        have := hzero (by omega)
        omega
      rw [if_neg hne]
      split
      next =>
        have hbig : value ≠ 0 := fun h0 => (hzero h0).2 rfl
        refine ⟨?_, trivial⟩
        rw [List.count_singleton, if_neg]
        rw [beq_iff_eq, ofNat_eq_newline_iff]
        omega
      next more =>
        refine ⟨rfl, by decide, fun h0 => absurd h0 hvalue⟩
    next =>
      obtain ⟨hcount, hsound⟩ := first_spec b
      refine ⟨?_, hsound⟩
      rw [List.count_cons, hcount]
      simp [replacement]

theorem count_lossy {progress : Progress} (h : progress.Sound) (bytes : List UInt8) :
    (progress.lossy bytes).count '\n' = bytes.count lineFeed := by
  induction bytes generalizing progress with
  | nil => cases progress <;> rfl
  | cons b rest ih =>
    obtain ⟨hcount, hsound⟩ := next_spec h b
    rw [lossy, List.count_append, hcount, ih hsound, List.count_cons, Nat.add_comm]
    simp only [beq_iff_eq]

end Progress

theorem count_lossy (bytes : List UInt8) :
    (lossy bytes).toList.count '\n' = bytes.count lineFeed := by
  rw [lossy, String.toList_ofList]
  have hfresh : Progress.Sound .fresh := trivial
  exact Progress.count_lossy hfresh bytes

end Text.Utf8

namespace Listing

theorem newline_not_mem_of_decode {bytes : List UInt8} {line : String}
    (h : decode bytes = .ok line) (hbytes : lineFeed ∉ bytes) : '\n' ∉ line.toList := by
  unfold decode at h
  split at h
  next text htext =>
    cases h
    have hcount := Text.Utf8.count_encode line
    rw [Text.Utf8.encode_of_decode? htext, List.count_eq_zero.mpr hbytes] at hcount
    exact List.count_eq_zero.mp hcount.symm
  next => cases h

theorem newline_not_mem_of_ended {before : List UInt8} {line : String}
    (h : ended before = .ok line) (hbefore : lineFeed ∉ before) : '\n' ∉ line.toList := by
  unfold ended at h
  split at h
  next => exact newline_not_mem_of_decode h List.not_mem_nil
  next b before =>
    refine newline_not_mem_of_decode h fun hmem => hbefore ?_
    split at hmem
    · exact List.mem_cons_of_mem _ (List.mem_reverse.mp hmem)
    · exact List.mem_reverse.mp hmem

/-- The bytes of the line under way have no line feed, and so neither has any line. -/
theorem newline_not_mem_linesAfter {before : List UInt8} {signals : List Signal} {line : String}
    (h : .ok line ∈ linesAfter before signals) (hbefore : lineFeed ∉ before) :
    '\n' ∉ line.toList := by
  fun_induction linesAfter before signals with
  | case1 => exact absurd h List.not_mem_nil
  | case2 b before =>
    have heq := List.mem_singleton.mp h
    exact newline_not_mem_of_decode heq.symm fun hmem => hbefore (List.mem_reverse.mp hmem)
  | case3 before rest ih =>
    rcases List.mem_cons.mp h with heq | hrest
    · exact newline_not_mem_of_ended heq.symm hbefore
    · exact ih hrest List.not_mem_nil
  | case4 before b rest hb ih =>
    refine ih h fun hmem => ?_
    rcases List.mem_cons.mp hmem with heq | hmem
    · exact hb heq.symm
    · exact hbefore hmem
  | case5 before rest ih => exact ih h hbefore
  | case6 before error rest hne ih =>
    rcases List.mem_cons.mp h with heq | hrest
    · cases heq
    · exact ih hrest List.not_mem_nil

theorem newline_not_mem_lines {listing : Listing} {line : String} (h : .ok line ∈ listing.lines) :
    '\n' ∉ line.toList :=
  newline_not_mem_linesAfter h List.not_mem_nil

end Listing

namespace Source

/-- No label of a span has a line feed. -/
def Unbroken (source : Source) : Prop :=
  ∀ s, Event.span s ∈ source → '\n' ∉ s.label.toList

theorem label_ofBounds (start stop : UInt64) (label : String) :
    (Span.ofBounds start stop label).label = label := by
  unfold Span.ofBounds
  split <;> rfl

theorem Maps.afterSpaces_subset {n : Nat} {text rest : List Char}
    (h : afterSpaces n text = some rest) : rest ⊆ text := by
  induction n generalizing text with
  | zero =>
    cases h
    exact List.Subset.refl _
  | succ n ih =>
    unfold afterSpaces at h
    split at h
    next => cases h
    next c more hdrop =>
      have hsubset : c :: more ⊆ text := hdrop ▸ List.dropWhile_subset _
      exact fun x hx => hsubset (List.mem_cons_of_mem _ (ih h hx))

theorem Maps.label_subset (line : List Char) : (label line).toList ⊆ line := by
  unfold label
  split
  next text htext =>
    rw [String.toList_ofList]
    exact fun c hc => afterSpaces_subset htext (List.dropWhile_subset _ hc)
  next => exact List.nil_subset _

theorem Iomem.afterColon_subset {text rest : List Char} (h : afterColon text = some rest) :
    rest ⊆ text := by
  induction text with
  | nil => cases h
  | cons c text ih =>
    unfold afterColon at h
    split at h
    · cases h
      exact fun x hx => List.mem_cons_of_mem _ (List.mem_of_mem_drop hx)
    · exact fun x hx => List.mem_cons_of_mem _ (ih h hx)

theorem Iomem.kernelLabel_subset {text : List Char} {label : String}
    (h : kernelLabel? text = some label) : label.toList ⊆ text := by
  unfold kernelLabel? at h
  split at h
  next name hname =>
    obtain ⟨rest, hrest, rfl⟩ := Option.map_eq_some_iff.mp hname
    split at h
    · cases h
      rw [String.toList_ofList]
      intro c hc
      have hdrop := List.dropWhile_subset _ (List.mem_reverse.mp hc)
      exact afterColon_subset hrest (List.mem_reverse.mp hdrop)
    · cases h
  next => cases h

theorem maps_unbroken (settings : Settings) (listing : Listing) :
    (maps settings listing).Unbroken := by
  intro s hs
  obtain ⟨item, hitem, hevent⟩ := List.mem_map.mp hs
  cases item with
  | error cause => cases hevent
  | ok line =>
    simp only [Maps.event, Maps.span?] at hevent
    split at hevent
    next s' hspan =>
      cases hevent
      obtain ⟨range, -, rfl⟩ := Option.map_eq_some_iff.mp hspan
      rw [label_ofBounds]
      exact fun hmem =>
        Listing.newline_not_mem_lines hitem (Maps.label_subset line.toList hmem)
    next => cases hevent

theorem iomem_unbroken (settings : Settings) (listing : Listing) :
    (iomem settings listing).Unbroken := by
  intro s hs
  obtain ⟨item, hitem, hevent⟩ := List.mem_filterMap.mp hs
  cases item with
  | error cause => cases hevent
  | ok line =>
    simp only [Iomem.event?] at hevent
    split at hevent
    next =>
      split at hevent
      next => cases hevent
      next label hlabel =>
        split at hevent
        next =>
          cases hevent
          rw [label_ofBounds]
          intro hmem
          have htrimmed := Iomem.kernelLabel_subset hlabel hmem
          exact Listing.newline_not_mem_lines hitem (List.dropWhile_subset _ htrimmed)
        next => cases hevent
    next => cases hevent

theorem physical_unbroken (settings : Settings) : (physical settings).Unbroken := by
  intro s hs
  cases List.mem_singleton.mp hs
  rw [label_ofBounds]
  decide

end Source

namespace Line

open Text.Numeral

theorem newline_not_mem_paddedHex (word : UInt64) : '\n' ∉ (paddedHex word).toList := by
  intro hmem
  rw [toList_paddedHex, List.mem_cons, List.mem_cons] at hmem
  rcases hmem with heq | heq | hdigit
  · exact absurd heq (by decide)
  · exact absurd heq (by decide)
  · obtain ⟨d, hd, heq⟩ := mem_wordDigits hdigit
    have hlt := (toNat_digitChar hd).1
    rw [← heq] at hlt
    exact absurd hlt (by decide)

theorem text_header (target : Target) (label : String) :
    (Line.header target label).text = "= " ++ toString target.id ++ " " ++ label := rfl

theorem text_span (s : Span) :
    (Line.span s).text =
      "v " ++ paddedHex s.start ++ " " ++ paddedHex s.stop ++ " " ++ s.label := rfl

theorem text_page (address : UInt64) (content : PageContent) :
    (Line.page address content).text = "p " ++ paddedHex address ++ " " ++ content.text := rfl

theorem text_frame (physical : UInt64) (exclusive shared : Bool) :
    (PageContent.frame physical exclusive shared).text =
      paddedHex physical ++ " " ++ PageContent.bitText exclusive ++ " " ++
        PageContent.bitText shared := rfl

theorem newline_not_mem_span {s : Span} (h : '\n' ∉ s.label.toList) :
    '\n' ∉ (Line.span s).text.toList := by
  simp [text_span, newline_not_mem_paddedHex, h]

theorem newline_not_mem_page (address : UInt64) (content : PageContent) :
    '\n' ∉ (Line.page address content).text.toList := by
  have hcontent : '\n' ∉ content.text.toList := by
    cases content with
    | frame physical exclusive shared =>
      cases exclusive <;> cases shared <;>
        simp [text_frame, newline_not_mem_paddedHex, PageContent.bitText]
    | flags f => exact newline_not_mem_paddedHex f.word
  simp [text_page, newline_not_mem_paddedHex, hcontent]

theorem toList_bytes (line : Line) :
    line.bytes.data.toList = Text.Utf8.encode line.text ++ [lineFeed] :=
  Text.Utf8.encode_append line.text "\n"

theorem toList_stream_cons (line : Line) (lines : List Line) :
    (stream (line :: lines)).data.toList =
      Text.Utf8.encode line.text ++ lineFeed :: (stream lines).data.toList := by
  rw [stream_cons, ByteArray.data_append, Array.toList_append, toList_bytes, List.append_assoc]
  rfl

theorem count_stream_cons (first : Line) (lines : List Line) :
    (stream (first :: lines)).data.toList.count lineFeed =
      first.text.toList.count '\n' + 1 + (stream lines).data.toList.count lineFeed := by
  rw [toList_stream_cons, List.count_append, Text.Utf8.count_encode, List.count_cons_self]
  omega

theorem count_stream {lines : List Line} (h : ∀ line ∈ lines, '\n' ∉ line.text.toList) :
    (stream lines).data.toList.count lineFeed = lines.length := by
  induction lines with
  | nil => rfl
  | cons line lines ih =>
    have hline := List.count_eq_zero.mpr (h line List.mem_cons_self)
    have hrest := ih fun line hmem => h line (List.mem_cons_of_mem _ hmem)
    rw [count_stream_cons, hline, hrest, List.length_cons]
    omega

theorem splitOn_of_not_mem {bytes : List UInt8} (h : lineFeed ∉ bytes) :
    bytes.splitOn lineFeed = [bytes] := by
  refine List.splitOnP_eq_singleton fun b hb => ?_
  rw [beq_eq_false_iff_ne]
  rintro rfl
  exact h hb

theorem splitOn_stream_cons (line : Line) (lines : List Line) :
    (stream (line :: lines)).data.toList.splitOn lineFeed =
      (Text.Utf8.encode line.text).splitOn lineFeed ++
        (stream lines).data.toList.splitOn lineFeed := by
  rw [toList_stream_cons]
  exact List.splitOnP_append_cons (p := (· == lineFeed)) _ _ (beq_self_eq_true lineFeed)

theorem splitOn_stream {lines : List Line} (h : ∀ line ∈ lines, '\n' ∉ line.text.toList) :
    (stream lines).data.toList.splitOn lineFeed =
      lines.map (fun line => Text.Utf8.encode line.text) ++ [[]] := by
  induction lines with
  | nil => rfl
  | cons line lines ih =>
    have hline := Text.Utf8.lineFeed_not_mem_encode (h line List.mem_cons_self)
    have hrest := ih fun line hmem => h line (List.mem_cons_of_mem _ hmem)
    rw [splitOn_stream_cons, splitOn_of_not_mem hline, hrest]
    rfl

end Line

end FrameScan
