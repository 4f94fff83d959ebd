import FrameScan.Proofs.WordFields

/-!
# Flags by name

The names that are listed for a frame, read back into flags. They are those of the declared flags
that are set, each once and by ascending bit, and the bits of these flags are the declared bits of
the word. A walk comes to one declared flag after the other and takes those that the word has, and
may end before the last of them. `Walk.Took` is what each visit preserves; `flags_named_exactly`
says which walks take all.
-/

namespace FrameScan

namespace Flag

def mask (flag : Flag) : UInt64 :=
  UInt64.ofNat (1 <<< flag.bit)

def union (flags : List Flag) : UInt64 :=
  flags.foldr (fun flag bits => flag.mask ||| bits) 0

def declaredBits : UInt64 :=
  union declared

def ofName? (name : String) : Option Flag :=
  declared.find? (·.name == name)

theorem declared_ascending : declared.Pairwise (·.bit < ·.bit) := by
  decide

theorem bit_lt_of_declared : ∀ flag ∈ declared, flag.bit < 64 := by
  decide

theorem nodup_names : (declared.map name).Nodup := by
  decide

theorem ofName?_name : ∀ flag ∈ declared, ofName? flag.name = some flag := by
  decide

theorem filterMap_ofName?_map {flags : List Flag} (h : ∀ flag ∈ flags, flag ∈ declared) :
    (flags.map name).filterMap ofName? = flags := by
  induction flags with
  | nil => rfl
  | cons flag flags ih =>
    obtain ⟨hflag, hflags⟩ := List.forall_mem_cons.mp h
    rw [List.map_cons, List.filterMap_cons_some (ofName?_name flag hflag), ih hflags]

theorem bit_mask (flag : Flag) {n : Nat} (h : n < 64) :
    Word.bit flag.mask n = decide (flag.bit = n) := by
  rw [Word.bit, mask, UInt64.toNat_ofNat', Nat.testBit_mod_two_pow, decide_eq_true h,
    Bool.true_and, Nat.one_shiftLeft, Nat.testBit_two_pow]

theorem bit_union_iff {flags : List Flag} {n : Nat} (h : n < 64) :
    Word.bit (union flags) n = true ↔ ∃ flag ∈ flags, flag.bit = n := by
  induction flags with
  | nil => simp [union]
  | cons flag flags ih =>
    have hcons : union (flag :: flags) = flag.mask ||| union flags := rfl
    rw [hcons, Word.bit_or, Bool.or_eq_true, ih, bit_mask flag h, decide_eq_true_eq]
    simp

theorem bit_without_iff {word : UInt64} {flags : List Flag} {n : Nat} (h : n < 64) :
    Word.bit (word &&& ~~~union flags) n = true ↔
      Word.bit word n = true ∧ ∀ flag ∈ flags, flag.bit ≠ n := by
  rw [Word.bit_and, Bool.and_eq_true, Word.bit_not _ h, Bool.not_eq_true', ← Bool.not_eq_true,
    bit_union_iff h]
  simp only [not_exists, not_and, ne_eq]

theorem bit_of_and_union_eq_zero {word : UInt64} {flags : List Flag}
    (h : word &&& union flags = 0) {flag : Flag} (hflag : flag ∈ flags) (hbit : flag.bit < 64) :
    Word.bit word flag.bit = false := by
  have hunion : Word.bit (union flags) flag.bit = true :=
    (bit_union_iff hbit).mpr ⟨flag, hflag, rfl⟩
  have hand := Word.bit_and word (union flags) flag.bit
  rw [h, hunion, Bool.and_true] at hand
  exact hand.symm.trans (Word.bit_zero _)

theorem mask_ne_zero {flag : Flag} (h : flag.bit < 64) : flag.mask ≠ 0 := by
  intro hzero
  have hbit := bit_mask flag h
  rw [hzero, Word.bit_zero, decide_eq_true rfl] at hbit
  exact Bool.false_ne_true hbit

theorem and_mask (word : UInt64) (flag : Flag) :
    word &&& flag.mask = if Word.bit word flag.bit then flag.mask else 0 := by
  apply Word.eq_of_bit_eq
  intro n hn
  rw [Word.bit_and, apply_ite (Word.bit · n), bit_mask flag hn]
  by_cases hflag : flag.bit = n
  · subst hflag
    cases Word.bit word flag.bit <;> simp
  · simp [hflag]

theorem without_concat (word : UInt64) (flags : List Flag) (flag : Flag) :
    word &&& ~~~union (flags ++ [flag]) = (word &&& ~~~union flags) &&& ~~~flag.mask := by
  apply Word.eq_of_bit_eq
  intro n hn
  rw [Bool.eq_iff_iff, bit_without_iff hn, Word.bit_and, Bool.and_eq_true, bit_without_iff hn,
    Word.bit_not _ hn, bit_mask flag hn, List.forall_mem_append, and_assoc]
  simp

/-- A walk over flags: those that were taken, and the bits that are left. -/
structure Walk where
  taken : List Flag
  left : UInt64
  deriving DecidableEq

namespace Walk

/-- Come to a flag, and take it if the word has it and its bit is left. -/
def visit (word : UInt64) (walk : Walk) (flag : Flag) : Walk :=
  if word &&& flag.mask = flag.mask ∧ walk.left &&& flag.mask ≠ 0 then
    ⟨walk.taken ++ [flag], walk.left &&& ~~~flag.mask⟩
  else
    walk

/-- Come to one flag after the other, until `ends` holds of the bits that are left. -/
def along (ends : UInt64 → Bool) (word : UInt64) (walk : Walk) : List Flag → Walk
  | [] => walk
  | flag :: flags => if ends walk.left then walk else along ends word (walk.visit word flag) flags

/-- The walk over the declared flags, with all bits of a word left at first. -/
def ofWord (ends : UInt64 → Bool) (word : UInt64) : Walk :=
  along ends word ⟨[], word⟩ declared

/-- What a walk over some flags has come to: it took those of them that the word has, and
the bits of all of them are gone. -/
structure Took (word : UInt64) (visited : List Flag) (walk : Walk) : Prop where
  taken : walk.taken = visited.filter (FrameFlags.has ⟨word⟩)
  left : walk.left = word &&& ~~~union visited

variable {word : UInt64} {walk : Walk} {visited : List Flag}

theorem Took.start (word : UInt64) : Took word [] ⟨[], word⟩ where
  taken := rfl
  left := by simp [union]

theorem Took.pass (h : Took word visited walk) {flags : List Flag}
    (habsent : ∀ flag ∈ flags, Word.bit word flag.bit = false) :
    Took word (visited ++ flags) walk where
  taken := by
    have hnone : flags.filter (FrameFlags.has ⟨word⟩) = [] := by
      rw [List.filter_eq_nil_iff]
      intro flag hflag
      rw [FrameFlags.has, habsent flag hflag]
      exact Bool.false_ne_true
    rw [h.taken, List.filter_append, hnone, List.append_nil]
  left := by
    rw [h.left]
    apply Word.eq_of_bit_eq
    intro n hn
    rw [Bool.eq_iff_iff, bit_without_iff hn, bit_without_iff hn, List.forall_mem_append]
    constructor
    · rintro ⟨hbit, hvisited⟩
      refine ⟨hbit, hvisited, ?_⟩
      rintro flag hflag rfl
      exact absurd hbit (ne_true_of_eq_false (habsent flag hflag))
    · rintro ⟨hbit, hvisited, -⟩
      exact ⟨hbit, hvisited⟩

theorem Took.visit (h : Took word visited walk) {flag : Flag} (hbit : flag.bit < 64)
    (hnew : ∀ earlier ∈ visited, earlier.bit ≠ flag.bit) :
    Took word (visited ++ [flag]) (walk.visit word flag) := by
  cases hword : Word.bit word flag.bit with
  | false =>
    have hpass : walk.visit word flag = walk := by
      apply if_neg
      rintro ⟨hmask, -⟩
      rw [and_mask, hword] at hmask
      exact mask_ne_zero hbit hmask.symm
    rw [hpass]
    exact h.pass (List.forall_mem_singleton.mpr hword)
  | true =>
    have hleft : Word.bit walk.left flag.bit = true := by
      rw [h.left]
      exact (bit_without_iff hbit).mpr ⟨hword, hnew⟩
    have htake : walk.visit word flag = ⟨walk.taken ++ [flag], walk.left &&& ~~~flag.mask⟩ := by
      apply if_pos
      rw [and_mask, and_mask, hword, hleft]
      exact ⟨rfl, mask_ne_zero hbit⟩
    have hone : [flag].filter (FrameFlags.has ⟨word⟩) = [flag] :=
      List.filter_cons_of_pos hword
    rw [htake]
    constructor
    · rw [h.taken, List.filter_append, hone]
    · rw [h.left, without_concat]

/-- A walk may end where the bits that are left have none of the flags to come. -/
theorem Took.along {ends : UInt64 → Bool} {flags : List Flag} (h : Took word visited walk)
    (horder : (visited ++ flags).Pairwise (·.bit < ·.bit)) (hbits : ∀ flag ∈ flags, flag.bit < 64)
    (hends : ∀ left, ends left = true → ∀ flag ∈ flags, Word.bit left flag.bit = false) :
    Took word (visited ++ flags) (along ends word walk flags) := by
  induction flags generalizing visited walk with
  | nil => rwa [List.append_nil]
  | cons flag flags ih =>
    have hnew := (List.pairwise_append.mp horder).2.2
    rw [Walk.along]
    split
    next hend =>
      apply h.pass
      intro later hlater
      have hgone := hends walk.left hend later hlater
      -- The flags come in order, so that only a flag's own visit takes its bit away.
      rw [h.left] at hgone
      rw [← Bool.not_eq_true] at hgone ⊢
      intro hword
      apply hgone
      rw [bit_without_iff (hbits later hlater)]
      exact ⟨hword, fun earlier hearlier => Nat.ne_of_lt (hnew earlier hearlier later hlater)⟩
    next =>
      obtain ⟨hbit, hbits⟩ := List.forall_mem_cons.mp hbits
      rw [List.append_cons] at horder ⊢
      apply ih _ horder hbits
      · intro left hend later hlater
        exact hends left hend later (List.mem_cons_of_mem _ hlater)
      · apply h.visit hbit
        intro earlier hearlier
        exact Nat.ne_of_lt (hnew earlier hearlier flag List.mem_cons_self)

theorem took_ofWord {ends : UInt64 → Bool}
    (h : ∀ left, ends left = true → left &&& declaredBits = 0) (word : UInt64) :
    Took word declared (ofWord ends word) := by
  apply (Took.start word).along declared_ascending bit_lt_of_declared
  intro left hend flag hflag
  exact bit_of_and_union_eq_zero (h left hend) hflag (bit_lt_of_declared flag hflag)

theorem ofWord_of_ends {ends : UInt64 → Bool} {word : UInt64} (h : ends word = true) :
    ofWord ends word = ⟨[], word⟩ :=
  if_pos h

end Walk

end Flag

namespace FrameFlags

variable (flags : FrameFlags)

def listed : List Flag :=
  flags.names.filterMap Flag.ofName?

theorem listed_eq : flags.listed = Flag.declared.filter flags.has :=
  Flag.filterMap_ofName?_map fun _ hflag => (List.mem_filter.mp hflag).1

theorem map_name_listed : flags.listed.map Flag.name = flags.names := by
  rw [listed_eq, names]

theorem mem_listed_iff {flag : Flag} :
    flag ∈ flags.listed ↔ flag ∈ Flag.declared ∧ Word.bit flags.word flag.bit = true := by
  rw [listed_eq, List.mem_filter, has]

theorem listed_ascending : flags.listed.Pairwise (·.bit < ·.bit) := by
  rw [listed_eq]
  exact Flag.declared_ascending.filter _

theorem union_listed : Flag.union flags.listed = flags.word &&& Flag.declaredBits := by
  apply Word.eq_of_bit_eq
  intro n hn
  rw [Bool.eq_iff_iff, Flag.bit_union_iff hn, Word.bit_and, Bool.and_eq_true, Flag.declaredBits,
    Flag.bit_union_iff hn]
  constructor
  · rintro ⟨flag, hlisted, rfl⟩
    obtain ⟨hflag, hbit⟩ := flags.mem_listed_iff.mp hlisted
    exact ⟨hbit, flag, hflag, rfl⟩
  · rintro ⟨hbit, flag, hflag, rfl⟩
    exact ⟨flag, flags.mem_listed_iff.mpr ⟨hflag, hbit⟩, rfl⟩

theorem mem_names_iff {flag : Flag} (h : flag ∈ Flag.declared) :
    flag.name ∈ flags.names ↔ Word.bit flags.word flag.bit = true := by
  rw [← map_name_listed, List.mem_map]
  constructor
  · rintro ⟨other, hlisted, hname⟩
    obtain ⟨hother, hbit⟩ := flags.mem_listed_iff.mp hlisted
    have hsame := Flag.ofName?_name flag h
    rw [← hname, Flag.ofName?_name other hother] at hsame
    cases hsame
    exact hbit
  · intro hbit
    exact ⟨flag, flags.mem_listed_iff.mpr ⟨h, hbit⟩, rfl⟩

theorem count_names {flag : Flag} (h : flag ∈ Flag.declared) :
    flags.names.count flag.name = (Word.bit flags.word flag.bit).toNat := by
  have hnodup : flags.names.Nodup :=
    Flag.nodup_names.sublist (List.filter_sublist.map Flag.name)
  rw [hnodup.count, if_congr (flags.mem_names_iff h) rfl rfl]
  cases Word.bit flags.word flag.bit <;> rfl

theorem names_eq_iff {flags other : FrameFlags} :
    other.names = flags.names ↔
      other.word &&& Flag.declaredBits = flags.word &&& Flag.declaredBits := by
  constructor
  · intro h
    rw [← union_listed, ← union_listed, listed, listed, h]
  · intro h
    have hhas : ∀ flag ∈ Flag.declared, other.has flag = flags.has flag := by
      intro flag hflag
      have hdeclared : Word.bit Flag.declaredBits flag.bit = true :=
        (Flag.bit_union_iff (Flag.bit_lt_of_declared flag hflag)).mpr ⟨flag, hflag, rfl⟩
      have hbit := congrArg (Word.bit · flag.bit) h
      simp only [Word.bit_and, hdeclared, Bool.and_true] at hbit
      exact hbit
    rw [names, names, List.filter_congr hhas]

theorem decode_toBytes (word : UInt64) (rest : List UInt8) :
    decode (Word.toBytes word ++ rest) = .ok ⟨word⟩ := by
  have hlength : 8 ≤ (Word.toBytes word ++ rest).length := by
    rw [List.length_append, Word.length_toBytes]
    exact Nat.le_add_right _ _
  obtain ⟨entry, hentry, hword⟩ := Entry.ofLeading_of_le hlength
  rw [List.take_left' (Word.length_toBytes word), Word.ofBytes_toBytes] at hword
  rw [decode, hentry, ← hword]
  rfl

/-- A word is kept as it is, and its names are read back into flags. These are the declared flags
that are set, by ascending bit. Each of them is named once, and no flag that is not set is named.
Their bits together are the word as far as its bits are declared, and words have the same names if
and only if they do not differ in that. A walk over the declared flags takes these flags, for every
word, if and only if it ends early only where no declared bit is left. -/
theorem flags_named_exactly :
    (∀ (word : UInt64) rest, ∃ flags, decode (Word.toBytes word ++ rest) = .ok flags ∧
      flags.word = word ∧ flags.listed.map Flag.name = flags.names ∧
      flags.listed.Pairwise (·.bit < ·.bit) ∧
      (∀ flag, flag ∈ flags.listed ↔ flag ∈ Flag.declared ∧ Word.bit word flag.bit = true) ∧
      (∀ flag ∈ Flag.declared, flags.names.count flag.name = (Word.bit word flag.bit).toNat) ∧
      Flag.union flags.listed = word &&& Flag.declaredBits ∧
      ∀ other : FrameFlags, other.names = flags.names ↔
        other.word &&& Flag.declaredBits = word &&& Flag.declaredBits) ∧
    ∀ ends, (∀ left, ends left = true → left &&& Flag.declaredBits = 0) ↔
      ∀ flags : FrameFlags,
        Flag.Walk.ofWord ends flags.word = ⟨flags.listed, flags.word &&& ~~~Flag.declaredBits⟩ := by
  constructor
  · intro word rest
    let flags : FrameFlags := ⟨word⟩
    exact ⟨flags, decode_toBytes word rest, rfl, flags.map_name_listed, flags.listed_ascending,
      fun _ => flags.mem_listed_iff, fun _ => flags.count_names, flags.union_listed,
      fun _ => names_eq_iff⟩
  · intro ends
    constructor
    · intro hends flags
      have htook := Flag.Walk.took_ofWord hends flags.word
      rw [listed_eq]
      exact congrArg₂ Flag.Walk.mk htook.taken htook.left
    · intro hwalk left hend
      have hnone : [] = FrameFlags.listed ⟨left⟩ := by
        have hstart := hwalk ⟨left⟩
        rw [Flag.Walk.ofWord_of_ends hend] at hstart
        exact congrArg Flag.Walk.taken hstart
      rw [← union_listed ⟨left⟩, ← hnone]
      rfl

/-- A word that has all bits without a name, and two of those with one. A walk that ends where no
bit is left goes on to the last flag here; one that ends where no bit below the gap is left would
lose the flags above it. -/
theorem crowded_word_named :
    let flags : FrameFlags := ⟨0xFFFFFC04F8001000⟩
    decode (Word.toBytes flags.word ++ [0xFF]) = .ok flags ∧
      flags.listed = [.anon, .mappedToDisk] ∧ flags.names = ["ANON", "MAPPEDTODISK"] ∧
      flags.names.count Flag.anon.name = 1 ∧ flags.names.count Flag.lru.name = 0 ∧
      Flag.union flags.listed = 0x400001000 ∧
      (FrameFlags.mk 0x400001000).names = flags.names ∧
      Flag.Walk.ofWord (· == 0) flags.word = ⟨flags.listed, 0xFFFFFC00F8000000⟩ ∧
      ¬ ∀ other : FrameFlags, Flag.Walk.ofWord (· &&& 0x7FFFFFF == 0) other.word =
        ⟨other.listed, other.word &&& ~~~Flag.declaredBits⟩ := by
  intro flags
  obtain ⟨hwords, hwalks⟩ := flags_named_exactly
  obtain ⟨decoded, hdecode, hword, hnames, -, -, hcount, hunion, hsame⟩ :=
    hwords flags.word [0xFF]
  obtain rfl : decoded = flags := congrArg FrameFlags.mk hword
  have hlisted : flags.listed = [.anon, .mappedToDisk] := by decide
  have hdeclared : flags.word &&& Flag.declaredBits = 0x400001000 := by decide
  have hleft : flags.word &&& ~~~Flag.declaredBits = 0xFFFFFC00F8000000 := by decide
  refine ⟨hdecode, hlisted, ?_, (hcount .anon (by decide)).trans (by decide),
    (hcount .lru (by decide)).trans (by decide), hunion.trans hdeclared,
    (hsame _).mpr (by decide), ?_, ?_⟩
  · rw [← hnames, hlisted]
    rfl
  · rw [← hleft]
    apply (hwalks (· == 0)).mp
    intro left hend
    rw [eq_of_beq hend, UInt64.zero_and]
  · intro hwhole
    have hgap := (hwalks _).mpr hwhole 0x100000000 (by decide)
    exact absurd hgap (by decide)

end FrameFlags

end FrameScan
