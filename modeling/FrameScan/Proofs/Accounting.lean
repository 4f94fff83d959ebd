import FrameScan.Proofs.AddressForm
import FrameScan.Proofs.KernelParts
import FrameScan.Proofs.ListedText

/-!
# Accounting for listings

What becomes of each line of a listing, and of each read of it that fails. A listing is divided
into them at line feeds and at failed reads, whatever the chunks are in which it comes and
wherever reads are interrupted. Of each a source has one event, or none at all for a line of
physical memory that is passed over; `listing_accounted` says which, in order.
-/

namespace FrameScan

namespace Listing

/-- What comes of a listing, without its division into chunks and its interrupted reads. -/
def heard (listing : Listing) : List Signal :=
  listing.signals.filter (· ≠ .fault .interrupted)

inductive Item where
  | line (bytes : List UInt8)
  | fault (error : SystemError)

def Item.read : Item → Except SystemError String
  | .line bytes => decode bytes
  | .fault error => .error error

/-- Signals and the items that they are divided into. A line feed ends a line, with or without
a carriage return before it. A failed read drops what has been read of a line, and what follows
it is a line of its own. The last line may be without an end. -/
inductive Divides : List Signal → List Item → Prop
  | nil : Divides [] []
  | last {piece : List UInt8} (nonempty : piece ≠ []) (unbroken : lineFeed ∉ piece) :
      Divides (piece.map .byte) [.line piece]
  | line {piece : List UInt8} {signals : List Signal} {items : List Item}
      (unbroken : lineFeed ∉ piece) (rest : Divides signals items) :
      Divides (piece.map .byte ++ .byte lineFeed :: signals) (.line (withoutReturn piece) :: items)
  | fault {piece : List UInt8} {error : SystemError} {signals : List Signal} {items : List Item}
      (unbroken : lineFeed ∉ piece) (rest : Divides signals items) :
      Divides (piece.map .byte ++ .fault error :: signals) (.fault error :: items)

theorem divides_linesAfter {before : List UInt8} {signals : List Signal}
    (hbefore : lineFeed ∉ before) :
    ∃ items, Divides (before.reverse.map .byte ++ signals.filter (· ≠ .fault .interrupted)) items ∧
      linesAfter before signals = items.map Item.read := by
  fun_induction linesAfter before signals with
  | case1 => exact ⟨[], .nil, rfl⟩
  | case2 b before =>
    refine ⟨[.line (b :: before).reverse], ?_, rfl⟩
    rw [List.filter_nil, List.append_nil]
    exact .last (by simp) (by rwa [List.mem_reverse])
  | case3 before rest ih =>
    obtain ⟨items, hdivides, hlines⟩ := ih List.not_mem_nil
    refine ⟨.line (withoutReturn before.reverse) :: items, ?_, ?_⟩
    · rw [List.filter_cons_of_pos (by simp)]
      exact .line (by rwa [List.mem_reverse]) hdivides
    · rw [List.map_cons, hlines, ended_eq]
      rfl
  | case4 before b rest hb ih =>
    have hcurrent : lineFeed ∉ b :: before := by
      rw [List.mem_cons, not_or]
      exact ⟨fun heq => hb heq.symm, hbefore⟩
    obtain ⟨items, hdivides, hlines⟩ := ih hcurrent
    refine ⟨items, ?_, hlines⟩
    rw [List.reverse_cons, List.map_append, List.append_assoc] at hdivides
    rw [List.filter_cons_of_pos (by simp)]
    exact hdivides
  | case5 before rest ih =>
    rw [List.filter_cons_of_neg (by simp)]
    exact ih hbefore
  | case6 before error rest hne ih =>
    obtain ⟨items, hdivides, hlines⟩ := ih List.not_mem_nil
    refine ⟨.fault error :: items, ?_, ?_⟩
    · rw [List.filter_cons_of_pos (by simpa using hne)]
      exact .fault (by rwa [List.mem_reverse]) hdivides
    · rw [List.map_cons, hlines]
      rfl

/-- A piece of a line goes up to the first signal that is no part of one. -/
def Signal.isPlain : Signal → Bool
  | .byte b => b != lineFeed
  | .fault _ => false

theorem isPlain_of_mem {piece : List UInt8} (unbroken : lineFeed ∉ piece) :
    ∀ signal ∈ piece.map Signal.byte, signal.isPlain = true := by
  intro signal hsignal
  obtain ⟨b, hb, rfl⟩ := List.mem_map.mp hsignal
  exact bne_iff_ne.mpr fun heq => unbroken (heq ▸ hb)

theorem piece_ne {piece other : List UInt8} {signal : Signal} {rest : List Signal}
    (unbroken : lineFeed ∉ piece) (hsignal : signal.isPlain = false) :
    piece.map .byte ≠ other.map .byte ++ signal :: rest := by
  intro heq
  have hmem : signal ∈ piece.map Signal.byte := by
    rw [heq]
    exact List.mem_append_right _ List.mem_cons_self
  rw [isPlain_of_mem unbroken signal hmem] at hsignal
  cases hsignal

theorem takeWhile_piece {piece : List UInt8} {signal : Signal} {rest : List Signal}
    (unbroken : lineFeed ∉ piece) (hsignal : signal.isPlain = false) :
    (piece.map Signal.byte ++ signal :: rest).takeWhile Signal.isPlain = piece.map .byte := by
  refine Text.takeWhile_append_of_head (isPlain_of_mem unbroken) ?_
  rintro s ⟨⟩
  exact hsignal

theorem map_byte_inj {piece other : List UInt8} (h : piece.map Signal.byte = other.map .byte) :
    piece = other :=
  List.map_injective_iff.mpr (fun _ _ hb => Signal.byte.inj hb) h

theorem piece_eq {piece other : List UInt8} {signal signal' : Signal} {rest rest' : List Signal}
    (unbroken : lineFeed ∉ piece) (unbroken' : lineFeed ∉ other)
    (hsignal : signal.isPlain = false) (hsignal' : signal'.isPlain = false)
    (h : piece.map .byte ++ signal :: rest = other.map .byte ++ signal' :: rest') :
    piece = other ∧ signal = signal' ∧ rest = rest' := by
  have htake := congrArg (List.takeWhile Signal.isPlain) h
  rw [takeWhile_piece unbroken hsignal, takeWhile_piece unbroken' hsignal'] at htake
  obtain rfl := map_byte_inj htake
  obtain ⟨rfl, rfl⟩ := List.cons.inj (List.append_cancel_left h)
  exact ⟨rfl, rfl, rfl⟩

theorem Divides.unique {signals : List Signal} {items others : List Item}
    (h : Divides signals items) (hother : Divides signals others) : others = items := by
  induction h generalizing others with
  | nil =>
    generalize hsignals : ([] : List Signal) = signals at hother
    cases hother with
    | nil => rfl
    | last nonempty => simp [nonempty] at hsignals
    | line => simp at hsignals
    | fault => simp at hsignals
  | @last piece nonempty unbroken =>
    generalize hsignals : piece.map Signal.byte = signals at hother
    cases hother with
    | nil => exact absurd (List.map_eq_nil_iff.mp hsignals) nonempty
    | last => rw [map_byte_inj hsignals]
    | line => exact absurd hsignals (piece_ne unbroken rfl)
    | fault => exact absurd hsignals (piece_ne unbroken rfl)
  | @line piece signals items unbroken rest ih =>
    generalize hsignals : piece.map Signal.byte ++ _ = signals at hother
    cases hother with
    | nil => simp at hsignals
    | last nonempty unbroken' => exact absurd hsignals.symm (piece_ne unbroken' rfl)
    | line unbroken' rest' =>
      obtain ⟨rfl, -, rfl⟩ := piece_eq unbroken unbroken' rfl rfl hsignals
      rw [ih rest']
    | fault unbroken' rest' =>
      obtain ⟨-, hsignal, -⟩ := piece_eq unbroken unbroken' rfl rfl hsignals
      cases hsignal
  | @fault piece error signals items unbroken rest ih =>
    generalize hsignals : piece.map Signal.byte ++ _ = signals at hother
    cases hother with
    | nil => simp at hsignals
    | last nonempty unbroken' => exact absurd hsignals.symm (piece_ne unbroken' rfl)
    | line unbroken' rest' =>
      obtain ⟨-, hsignal, -⟩ := piece_eq unbroken unbroken' rfl rfl hsignals
      cases hsignal
    | fault unbroken' rest' =>
      obtain ⟨-, hsignal, rfl⟩ := piece_eq unbroken unbroken' rfl rfl hsignals
      cases hsignal
      rw [ih rest']

theorem exists_divides (listing : Listing) :
    ∃ items, Divides listing.heard items ∧ listing.lines = items.map Item.read :=
  divides_linesAfter List.not_mem_nil

theorem lines_of_divides {listing : Listing} {items : List Item}
    (h : Divides listing.heard items) : listing.lines = items.map Item.read := by
  obtain ⟨others, hothers, hlines⟩ := listing.exists_divides
  rw [← h.unique hothers]
  exact hlines

/-- How a listing is cut into chunks, and where its reads are interrupted, leaves no trace. -/
theorem lines_eq_of_heard {listing other : Listing} (h : other.heard = listing.heard) :
    other.lines = listing.lines := by
  obtain ⟨items, hitems, hlines⟩ := listing.exists_divides
  rw [hlines, lines_of_divides (h ▸ hitems)]

end Listing

namespace Source

open AddressRange (Form)
open Listing (Item Divides)
open Text.Utf8

/-- What a source has for an item of its listing, where `takes` says which spans there are for a
line and `refuses` says which notices. -/
inductive Accounted (name : String) (takes : String → Span → Prop)
    (refuses : String → Notice → Prop) : Item → Source → Prop
  | fault {error : SystemError} :
      Accounted name takes refuses (.fault error) [.failure (.resourceUnavailable name error)]
  | notText {bytes : List UInt8} (not_text : isText bytes = false) :
      Accounted name takes refuses (.line bytes) [.failure (.resourceUnavailable name .notText)]
  | span {line : String} {s : Span} (taken : takes line s) :
      Accounted name takes refuses (.line (encode line)) [.span s]
  | notice {line : String} {notice : Notice} (refused : refuses line notice) :
      Accounted name takes refuses (.line (encode line)) [.notice notice]
  | silent {line : String} (no_span : ∀ s, ¬ takes line s) (no_notice : ∀ n, ¬ refuses line n) :
      Accounted name takes refuses (.line (encode line)) []

/-- Events for the items of a listing, one after another. -/
def Accounts (name : String) (takes : String → Span → Prop) (refuses : String → Notice → Prop)
    (items : List Item) (source : Source) : Prop :=
  ∃ parts, List.Forall₂ (Accounted name takes refuses) items parts ∧ source = parts.flatten

section
variable {name : String} {takes : String → Span → Prop} {refuses : String → Notice → Prop}

theorem accounted_read (read : Except SystemError String → Option Event)
    (failed : ∀ error, read (.error error) = some (.failure (.resourceUnavailable name error)))
    (taken : ∀ line s, read (.ok line) = some (.span s) ↔ takes line s)
    (refused : ∀ line notice, read (.ok line) = some (.notice notice) ↔ refuses line notice)
    (unfailing : ∀ line failure, read (.ok line) ≠ some (.failure failure)) (item : Item) :
    Accounted name takes refuses item (read item.read).toList := by
  cases item with
  | fault error =>
    rw [Item.read, failed]
    exact .fault
  | line bytes =>
    cases htext : decode? bytes with
    | none =>
      have hline : (Item.line bytes).read = .error .notText := by
        rw [Item.read, Listing.decode, htext]
      rw [hline, failed]
      exact .notText (by rw [isText, htext]; rfl)
    | some line =>
      have hline : (Item.line bytes).read = .ok line := by
        rw [Item.read, Listing.decode, htext]
      rw [hline, ← encode_of_decode? htext]
      cases hread : read (.ok line) with
      | none =>
        refine .silent ?_ ?_
        · intro s hs
          rw [← taken, hread] at hs
          cases hs
        · intro notice hnotice
          rw [← refused, hread] at hnotice
          cases hnotice
      | some event =>
        cases event with
        | span s => exact .span ((taken line s).mp hread)
        | failure failure => exact absurd hread (unfailing line failure)
        | notice notice => exact .notice ((refused line notice).mp hread)

theorem accounts_read {read : Except SystemError String → Option Event}
    (h : ∀ item : Item, Accounted name takes refuses item (read item.read).toList)
    (items : List Item) :
    Accounts name takes refuses items ((items.map Item.read).filterMap read) := by
  refine ⟨items.map fun item => (read item.read).toList, ?_, ?_⟩
  · rw [List.forall₂_map_right_iff, List.forall₂_same]
    exact fun item _ => h item
  · rw [List.filterMap_map, List.filterMap_eq_flatMap_toList]
    rfl

theorem Accounts.exists_refused {items : List Item} {source : Source} {notice : Notice}
    (h : Accounts name takes refuses items source) (hmem : .notice notice ∈ source) :
    ∃ line, refuses line notice := by
  obtain ⟨parts, hparts, rfl⟩ := h
  induction hparts with
  | nil => exact absurd hmem List.not_mem_nil
  | cons hitem _ ih =>
    rw [List.flatten_cons, List.mem_append] at hmem
    rcases hmem with hfirst | hrest
    · cases hitem with
      | notice refused =>
        cases List.mem_singleton.mp hfirst
        exact ⟨_, refused⟩
      | silent => exact absurd hfirst List.not_mem_nil
      | fault | notText | span => cases List.mem_singleton.mp hfirst
    · exact ih hrest

end

namespace Maps

variable (size : PageSize)

/-- A line that begins with an address range has a span. -/
def Takes (line : String) (s : Span) : Prop :=
  ∃ range, Form line.toList range ∧
    s = Span.ofBounds (size.floor range.first) (size.ceil range.last) (label line.toList)

/-- Any other line has a notice. -/
def Refuses (line : String) (notice : Notice) : Prop :=
  (∀ range, ¬ Form line.toList range) ∧ notice = .unreadableMapping line

theorem accounted (item : Item) :
    Accounted "maps listing" (Takes size) Refuses item (some (event size item.read)).toList := by
  refine accounted_read (fun line => some (event size line)) (fun _ => rfl) ?_ ?_ ?_ item
  · intro line s
    rw [Option.some_inj]
    exact event_eq_span_iff
  · intro line notice
    rw [Option.some_inj]
    exact event_eq_notice_iff
  · intro line failure h
    rw [Option.some_inj, event] at h
    cases hspan : span? size line.toList <;> simp [hspan] at h

end Maps

namespace Iomem

variable (size : PageSize)

/-- An indented line with a name that begins with `Kernel` has a span, if its text begins with an
address range. -/
def Takes (line : String) (s : Span) : Prop :=
  ∃ text label range, Named line.toList text label ∧ Form text range ∧
    s = Span.ofBounds (size.floor range.first) (size.ceil (after range.last)) label

/-- Such a line has a notice, if its text begins with no address range. -/
def Refuses (line : String) (notice : Notice) : Prop :=
  ∃ text label, Named line.toList text label ∧ (∀ range, ¬ Form text range) ∧
    notice = .unreadableRegion (String.ofList text)

theorem accounted (item : Item) :
    Accounted "iomem listing" (Takes size) Refuses item (event? size item.read).toList :=
  accounted_read (event? size) (fun _ => rfl) (fun _ _ => event?_eq_span_iff)
    (fun _ _ => event?_eq_notice_iff) (event?_ne_failure size) item

end Iomem

theorem accounts_maps (settings : Settings) {listing : Listing} {items : List Item}
    (h : Divides listing.heard items) :
    Accounts "maps listing" (Maps.Takes settings.pageSize) Maps.Refuses items
      (maps settings listing) := by
  rw [maps, Listing.lines_of_divides h, ← List.filterMap_eq_map]
  exact accounts_read (Maps.accounted settings.pageSize) items

theorem accounts_iomem (settings : Settings) {listing : Listing} {items : List Item}
    (h : Divides listing.heard items) :
    Accounts "iomem listing" (Iomem.Takes settings.pageSize) Iomem.Refuses items
      (iomem settings listing) := by
  rw [iomem, Listing.lines_of_divides h]
  exact accounts_read (Iomem.accounted settings.pageSize) items

/-- A listing is divided into lines and failed reads in one way, and both kinds of source account
for each of these once and in order: for a failed read and for a line that is not text with a
failure, for any other line with a span, a notice, or nothing. A mapping has a span or a notice,
as its address range can be read or not. A line of physical memory has neither unless it is a
part of the kernel image. The notices are errors. Where the chunks of the listing end and where
reads are interrupted makes no difference. -/
theorem listing_accounted (settings : Settings) (listing : Listing) :
    (∃ items, (∀ others, Divides listing.heard others ↔ others = items) ∧
      Accounts "maps listing" (Maps.Takes settings.pageSize) Maps.Refuses items
        (maps settings listing) ∧
      Accounts "iomem listing" (Iomem.Takes settings.pageSize) Iomem.Refuses items
        (iomem settings listing)) ∧
    (∀ notice, .notice notice ∈ maps settings listing ++ iomem settings listing →
      notice.level = .error) ∧
    ∀ other : Listing, other.heard = listing.heard →
      maps settings other = maps settings listing ∧
        iomem settings other = iomem settings listing := by
  obtain ⟨items, hitems, -⟩ := listing.exists_divides
  have hmaps := accounts_maps settings hitems
  have hiomem := accounts_iomem settings hitems
  refine ⟨⟨items, ?_, hmaps, hiomem⟩, ?_, ?_⟩
  · intro others
    constructor
    · exact hitems.unique
    · rintro rfl
      exact hitems
  · intro notice hmem
    rcases List.mem_append.mp hmem with hmem | hmem
    · obtain ⟨line, -, rfl⟩ := hmaps.exists_refused hmem
      rfl
    · obtain ⟨line, text, label, -, -, rfl⟩ := hiomem.exists_refused hmem
      rfl
  · intro other hheard
    rw [maps, maps, iomem, iomem, Listing.lines_eq_of_heard hheard]
    exact ⟨rfl, rfl⟩

/-- A listing with a failed read in its second line, a line that is not text and a last line
without an end. -/
def tornListing : Listing :=
  [.bytes (encode "1000-2000 r--p 0 00:00 0 /x\r\ngarb"), .fault (.numbered 5),
    .bytes (encode "age\n" ++ [0xFF, 0x0A] ++ encode "  zzz : Kernel code")]

def shreddedListing : Listing :=
  [.bytes (encode "10"), .fault .interrupted,
    .bytes (encode "00-2000 r--p 0 00:00 0 /x\r"), .bytes (encode "\ngarb"), .fault (.numbered 5),
    .bytes (encode "age\n" ++ [0xFF]), .bytes [0x0A], .bytes (encode "  zzz : Kernel code")]

theorem torn_listing_accounted :
    let settings : Settings := { pageSize := ⟨0x1000, 12, rfl⟩, pageCount := 16 }
    maps settings tornListing =
        [.span ⟨0x1000, 0x2000, "/x", by decide⟩,
          .failure (.resourceUnavailable "maps listing" (.numbered 5)),
          .notice (.unreadableMapping "age"),
          .failure (.resourceUnavailable "maps listing" .notText),
          .notice (.unreadableMapping "  zzz : Kernel code")] ∧
      iomem settings tornListing =
        [.failure (.resourceUnavailable "iomem listing" (.numbered 5)),
          .failure (.resourceUnavailable "iomem listing" .notText),
          .notice (.unreadableRegion "zzz : Kernel code")] ∧
      Notice.level (.unreadableMapping "age") = .error ∧
      shreddedListing.heard = tornListing.heard ∧
      maps settings shreddedListing = maps settings tornListing ∧
      iomem settings shreddedListing = iomem settings tornListing := by
  intro settings
  obtain ⟨-, hlevel, hother⟩ := listing_accounted settings tornListing
  have hmaps : maps settings tornListing =
      [.span ⟨0x1000, 0x2000, "/x", by decide⟩,
        .failure (.resourceUnavailable "maps listing" (.numbered 5)),
        .notice (.unreadableMapping "age"),
        .failure (.resourceUnavailable "maps listing" .notText),
        .notice (.unreadableMapping "  zzz : Kernel code")] := by
    decide +kernel
  have hheard : shreddedListing.heard = tornListing.heard := by decide +kernel
  refine ⟨hmaps, by decide +kernel, hlevel _ ?_, hheard, hother shreddedListing hheard⟩
  rw [hmaps]
  simp

end Source

end FrameScan
