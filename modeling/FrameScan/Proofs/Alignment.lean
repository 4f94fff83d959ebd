import FrameScan.Settings
import FrameScan.Source.Iomem
import FrameScan.Source.Maps
import FrameScan.Proofs.Rounding

/-!
# Alignment

Which spans begin and end at page boundaries. Those of listings do, as both of their bounds
are rounded. The end of physical memory is the product of two words and is not rounded where
it is cut off, so the span of all physical memory does unless that happens; `sources_paged`
gives the condition.
-/

namespace FrameScan

namespace PageSize

variable (size : PageSize)

theorem dvd_ceil (address : UInt64) : size.bytes.toNat ∣ (size.ceil address).toNat := by
  unfold ceil
  split
  · exact size.dvd_floor _
  · exact size.dvd_lastPage

theorem eq_one_of_dvd_last (h : size.bytes.toNat ∣ UInt64.size - 1) : size.bytes.toNat = 1 := by
  have hone := Nat.dvd_sub size.dvd_size h
  rw [Nat.sub_sub_self (by decide)] at hone
  exact Nat.dvd_one.mp hone

end PageSize

/-- The bounds of a span are in order and at page boundaries. -/
structure Span.Paged (size : PageSize) (s : Span) : Prop where
  ordered : s.start ≤ s.stop
  start : size.bytes.toNat ∣ s.start.toNat
  stop : size.bytes.toNat ∣ s.stop.toNat

theorem Span.start_ofBounds (start stop : UInt64) (label : String) :
    (ofBounds start stop label).start = start := by
  unfold ofBounds
  split <;> rfl

theorem Span.toNat_stop_ofBounds (start stop : UInt64) (label : String) :
    (ofBounds start stop label).stop.toNat = max start.toNat stop.toNat := by
  unfold ofBounds
  split
  next hle => exact (Nat.max_eq_right (UInt64.le_iff_toNat_le.mp hle)).symm
  next hinverted =>
    rw [UInt64.le_iff_toNat_le] at hinverted
    exact (Nat.max_eq_left (Nat.le_of_not_le hinverted)).symm

theorem Span.paged_ofBounds {size : PageSize} {start stop : UInt64}
    (hstart : size.bytes.toNat ∣ start.toNat) (hstop : size.bytes.toNat ∣ stop.toNat)
    (label : String) : (ofBounds start stop label).Paged size := by
  unfold ofBounds
  split
  next hle => exact ⟨hle, hstart, hstop⟩
  next => exact ⟨UInt64.le_refl _, hstart, hstart⟩

namespace Source

def Paged (size : PageSize) (events : Source) : Prop :=
  ∀ s, .span s ∈ events → s.Paged size

theorem paged_of_maps_event {size : PageSize} {item : Except SystemError String} {s : Span}
    (h : Maps.event size item = .span s) : s.Paged size := by
  cases item with
  | error cause => cases h
  | ok line =>
    cases hrange : AddressRange.ofLeading? line.toList with
    | none =>
      simp only [Maps.event, Maps.span?, hrange, Option.map_none] at h
      cases h
    | some range =>
      simp only [Maps.event, Maps.span?, hrange, Option.map_some] at h
      cases h
      exact Span.paged_ofBounds (size.dvd_floor _) (size.dvd_ceil _) _

theorem paged_of_iomem_event {size : PageSize} {item : Except SystemError String} {s : Span}
    (h : Iomem.event? size item = some (.span s)) : s.Paged size := by
  cases item with
  | error cause => cases h
  | ok line =>
    simp only [Iomem.event?] at h
    -- Of the ways to go through a line only one ends with a span.
    repeat' split at h
    all_goals cases h
    exact Span.paged_ofBounds (size.dvd_floor _) (size.dvd_ceil _) _

variable (settings : Settings) (listing : Listing)

theorem maps_paged : (maps settings listing).Paged settings.pageSize := by
  intro s hmem
  obtain ⟨item, -, hevent⟩ := List.mem_map.mp hmem
  exact paged_of_maps_event hevent

theorem iomem_paged : (iomem settings listing).Paged settings.pageSize := by
  intro s hmem
  obtain ⟨item, -, hevent⟩ := List.mem_filterMap.mp hmem
  exact paged_of_iomem_event hevent

end Source

namespace Settings

variable (settings : Settings)

theorem toNat_physicalEnd :
    settings.physicalEnd.toNat =
      min (settings.pageCount.toNat * settings.pageSize.bytes.toNat) (UInt64.size - 1) := by
  rw [physicalEnd]
  split
  next hfits =>
    rw [UInt64.toNat_ofNat_of_lt' hfits]
    omega
  next hcut =>
    have hlast : (0xFFFFFFFFFFFFFFFF : UInt64).toNat = UInt64.size - 1 := rfl
    rw [hlast]
    omega

theorem dvd_physicalEnd_iff :
    settings.pageSize.bytes.toNat ∣ settings.physicalEnd.toNat ↔
      settings.pageCount.toNat * settings.pageSize.bytes.toNat < UInt64.size := by
  have hend := settings.toNat_physicalEnd
  constructor
  · intro hdvd
    by_contra hcut
    have hlast : settings.physicalEnd.toNat = UInt64.size - 1 := by omega
    rw [hlast] at hdvd
    -- With pages of one byte there is nothing to cut off.
    have hone := settings.pageSize.eq_one_of_dvd_last hdvd
    have hcount := settings.pageCount.toNat_lt_size
    rw [hone, Nat.mul_one] at hcut
    exact hcut hcount
  · intro hfits
    have hproduct : settings.physicalEnd.toNat =
        settings.pageCount.toNat * settings.pageSize.bytes.toNat := by omega
    rw [hproduct]
    exact Nat.dvd_mul_left _ _

end Settings

namespace Source

/-- Whatever a listing has, its spans are of whole pages. The span of physical memory is from
the first address to the product of the number of pages and their size, cut off at the last
address; it is of whole pages if and only if it is not cut off. -/
theorem sources_paged (settings : Settings) (listing : Listing) :
    (maps settings listing).Paged settings.pageSize ∧
    (iomem settings listing).Paged settings.pageSize ∧
    ∃ s : Span, physical settings = [.span s] ∧
      s.start = 0 ∧
      s.stop.toNat =
        min (settings.pageCount.toNat * settings.pageSize.bytes.toNat) (UInt64.size - 1) ∧
      (s.Paged settings.pageSize ↔
        settings.pageCount.toNat * settings.pageSize.bytes.toNat < UInt64.size) := by
  have hordered : (0 : UInt64) ≤ settings.physicalEnd := UInt64.zero_le
  refine ⟨maps_paged settings listing, iomem_paged settings listing,
    ⟨0, settings.physicalEnd, "physical", hordered⟩, ?_, rfl, settings.toNat_physicalEnd, ?_⟩
  · rw [physical, Span.ofBounds, dif_pos hordered]
  · rw [← settings.dvd_physicalEnd_iff]
    constructor
    · exact Span.Paged.stop
    · intro hstop
      exact ⟨hordered, Nat.dvd_zero _, hstop⟩

/-- As many pages as it takes to fill the address space: the span of them ends one byte
before it does. -/
theorem full_memory_cut_off :
    let settings : Settings := ⟨⟨0x1000, 12, rfl⟩, 0x10000000000000, .ofText "/proc", default⟩
    let s : Span := ⟨0, 0xFFFFFFFFFFFFFFFF, "physical", by decide⟩
    physical settings = [.span s] ∧ ¬ s.Paged settings.pageSize ∧
      ¬ (physical settings).Paged settings.pageSize := by
  intro settings s
  have hphysical : physical settings = [.span s] := by decide +kernel
  have hcut : ¬ s.Paged settings.pageSize := by
    intro hpaged
    exact absurd hpaged.stop (by decide)
  refine ⟨hphysical, hcut, ?_⟩
  intro hpaged
  apply hcut
  apply hpaged
  rw [hphysical]
  exact List.mem_singleton_self _

end Source

end FrameScan
