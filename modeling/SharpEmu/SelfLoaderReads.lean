import SharpEmu.SelfLoader

/-!
# The loader reads inside the file

Every range is checked with wrapping arithmetic that loses nothing, so a read that
is made lies inside the span, and the entries of a table are read at their exact
offsets.  Only the position of the program header table can overflow.
-/

namespace SharpEmu
namespace SelfLoader

open Faulting

variable {Memory Value : Type}

/-! ## Ranges of the span -/

theorem ImageData.length_lt (image : ImageData) : image.length < 2 ^ 31 := by
  have isInt : image.length ≤ 0x7FFFFFFF := image.length_le
  omega

theorem toNat_ofNat_length (image : ImageData) :
    (UInt64.ofNat image.length).toNat = image.length := by
  have small : image.length < 2 ^ 64 :=
    Nat.lt_trans image.length_lt (by decide)
  exact UInt64.toNat_ofNat_of_lt' small

theorem rangeChecks_iff (image : ImageData) (offset size : UInt64) :
    ¬ offset > .ofNat image.length ∧ ¬ offset + size < offset ∧
        ¬ offset + size > .ofNat image.length ↔
      offset.toNat + size.toNat ≤ image.length := by
  have small := image.length_lt
  have offsetSmall := offset.toNat_lt
  have sizeSmall := size.toNat_lt
  simp only [gt_iff_lt, UInt64.lt_iff_toNat_lt, toNat_ofNat_length, UInt64.toNat_add]
  omega

theorem tryIsInRange_iff (image : ImageData) (offset size : UInt64) :
    tryIsInRange image.length offset size = true ↔ offset.toNat + size.toNat ≤ image.length := by
  rw [← rangeChecks_iff, tryIsInRange]
  split
  case isTrue beyond => simp [beyond]
  case isFalse within => simp [within]

variable {offset size : UInt64}

theorem ensureRange_inside {image : ImageData} (inside : offset.toNat + size.toNat ≤ image.length) :
    (ensureRange image.length offset size : Loader Memory Unit) = pure () := by
  obtain ⟨starts, noWrap, ends⟩ := (rangeChecks_iff image offset size).mpr inside
  rw [ensureRange, if_neg starts]
  exact if_neg (not_or.mpr ⟨noWrap, ends⟩)

theorem ensureRange_outside {image : ImageData}
    (outside : ¬ offset.toNat + size.toNat ≤ image.length) :
    ∃ message, (ensureRange image.length offset size : Loader Memory Unit) =
      throw (.invalidData message) := by
  rw [ensureRange]
  split
  case isTrue => exact ⟨_, rfl⟩
  case isFalse starts =>
    have failing : offset + size < offset ∨ offset + size > .ofNat image.length := by
      by_contra passing
      obtain ⟨noWrap, ends⟩ := not_or.mp passing
      exact outside ((rangeChecks_iff image offset size).mp ⟨starts, noWrap, ends⟩)
    exact ⟨_, if_pos failing⟩

theorem ensureRange_spec {image : ImageData} {property : LoaderState Memory → Prop} :
    Ensures property (ensureRange image.length offset size) (fun _ state => property state ∧
        offset.toNat + size.toNat ≤ image.length) property := by
  by_cases inside : offset.toNat + size.toNat ≤ image.length
  · rw [ensureRange_inside inside]
    exact ensures_pure fun _ holds => ⟨holds, inside⟩
  · obtain ⟨message, isThrow⟩ : ∃ message, (ensureRange image.length offset size :
          Loader Memory Unit) = throw (.invalidData message) :=
      ensureRange_outside inside
    rw [isThrow]
    exact ensures_throw fun _ holds => holds

/-! ## Reads -/

def SliceAccess.Inside (image : ImageData) (access : SliceAccess) : Prop :=
  0 ≤ access.offset ∧ 0 ≤ access.size ∧ access.offset + access.size ≤ image.length

def ReadsInside (image : ImageData) (state : LoaderState Memory) : Prop :=
  ∀ access ∈ state.reads, access.Inside image

theorem readsInside_start (image : ImageData) (memory : Memory) :
    ReadsInside image (LoaderState.start memory) := by
  rintro _ ⟨⟩

def ReadsReturning (image : ImageData) (values : Value → Prop)
    (program : Loader Memory Value) : Prop :=
  Ensures (ReadsInside image) program (fun value state => ReadsInside image state ∧ values value)
    (ReadsInside image)

variable {image : ImageData}

variable {values : Value → Prop}

theorem readsReturning_throw (fault : LoadFault) :
    ReadsReturning image values (throw fault : Loader Memory Value) :=
  ensures_throw fun _ holds => holds

variable {program : Loader Memory Value}

theorem ReadsReturning.keeps (spec : ReadsReturning image values program) :
    Keeps (ReadsInside image) program :=
  spec.toPost fun _ _ known => known.1

theorem ReadsReturning.bind {Result : Type} {results : Result → Prop}
    {next : Value → Loader Memory Result}
    (spec : ReadsReturning image values program)
    (rest : ∀ value, values value → ReadsReturning image results (next value)) :
    ReadsReturning image results (program >>= next) :=
  Ensures.bind spec fun value =>
    Ensures.assuming (fun _ known => known.2) fun isValue =>
      (rest value isValue).ofPre fun _ known => known.1

theorem readsReturning_of_keeps (keeps : Keeps (ReadsInside image) program) :
    ReadsReturning image (fun _ => True) program :=
  keeps.toPost fun _ _ holds => ⟨holds, trivial⟩

theorem readsReturning_pure {value : Value} (isValue : values value) :
    ReadsReturning image values (pure value : Loader Memory Value) :=
  ensures_pure fun _ holds => ⟨holds, isValue⟩

theorem inside_of_nat {offset size : ℕ} (inside : offset + size ≤ image.length) :
    SliceAccess.Inside image ⟨offset, size⟩ :=
  ⟨Int.natCast_nonneg offset, Int.natCast_nonneg size, by
    change (offset : ℤ) + size ≤ image.length
    exact_mod_cast inside⟩

theorem keeps_recordRead {offset size : ℤ} (inside : SliceAccess.Inside image ⟨offset, size⟩) :
    Keeps (ReadsInside image) (recordRead offset size : Loader Memory Unit) := by
  refine keeps_modify fun state holds access member => ?_
  rcases List.mem_cons.mp member with rfl | isEarlier
  · exact inside
  · exact holds access isEarlier

theorem keeps_slice {offset size : ℤ} (inside : SliceAccess.Inside image ⟨offset, size⟩) :
    Keeps (ReadsInside image) (slice image offset size : Loader Memory (List UInt8)) :=
  (keeps_recordRead inside).bind fun _ =>
    Keeps.ite (fun _ => keeps_pure _) fun _ => keeps_throw _

theorem ensureRange_returning (offset size : UInt64) : ReadsReturning image
      (fun _ => offset.toNat + size.toNat ≤ image.length)
      (ensureRange image.length offset size : Loader Memory Unit) :=
  ensureRange_spec

theorem checkedInt_spec (value : ℕ) : ReadsReturning image
      (fun result => result = value ∧ value ≤ intMaxValue)
      (checkedInt value : Loader Memory ℕ) :=
  Ensures.ite (fun isInt => readsReturning_pure ⟨rfl, isInt⟩)
    fun _ => readsReturning_throw _

theorem readUnmanaged_spec {size offset : ℕ} (sizeSmall : size < 2 ^ 64)
    (offsetSmall : offset < 2 ^ 64) (ofSpan : (ℕ → UInt8) → Value) :
    ReadsReturning image (fun value => value = ofSpan (image.spanFrom offset) ∧
        offset + size ≤ image.length)
      (readUnmanaged size ofSpan image offset : Loader Memory Value) := by
  refine (ensureRange_returning _ _).bind fun _ inside => ?_
  rw [UInt64.toNat_ofNat_of_lt' offsetSmall, UInt64.toNat_ofNat_of_lt' sizeSmall] at inside
  exact (readsReturning_of_keeps (keeps_recordRead
    (inside_of_nat inside))).bind fun _ _ => readsReturning_pure ⟨rfl, inside⟩

structure EntryRead (image : ImageData) (size stride tableOffset : ℕ)
    (ofSpan : (ℕ → UInt8) → Value) (index : ℕ) (entry : Value) : Prop where
  value : entry = ofSpan (image.spanFrom (tableOffset + index * stride))
  inside : tableOffset + index * stride + size ≤ image.length

structure TableRead (image : ImageData) (size stride tableOffset : ℕ)
    (ofSpan : (ℕ → UInt8) → Value) (remaining index : ℕ)
    (entries : List Value) : Prop where
  length_eq : entries.length = remaining
  entry : ∀ position entry, entries[position]? = some entry →
    EntryRead image size stride tableOffset ofSpan (index + position) entry

theorem readTable_spec {size : ℕ} (sizeSmall : size < 2 ^ 64)
    (stride tableOffset : ℕ) (ofSpan : (ℕ → UInt8) → Value)
    (remaining index : ℕ) :
    ReadsReturning image (TableRead image size stride tableOffset ofSpan remaining index)
      (readTable size stride tableOffset ofSpan image remaining index :
        Loader Memory (List Value)) := by
  induction remaining generalizing index with
  | zero =>
    apply readsReturning_pure
    constructor
    · rfl
    · rintro position entry ⟨⟩
  | succ remaining ih =>
    refine (checkedInt_spec _).bind fun entryOffset isOffset => ?_
    obtain ⟨rfl, isInt⟩ := isOffset
    unfold intMaxValue at isInt
    refine (readUnmanaged_spec sizeSmall (by omega) ofSpan).bind
      fun entry isEntry => ?_
    refine (ih (index + 1)).bind fun rest isRest => ?_
    apply readsReturning_pure
    constructor
    · rw [List.length_cons, isRest.length_eq]
    · intro position other isOther
      cases position with
      | zero =>
        obtain rfl := Option.some.inj isOther
        exact ⟨isEntry.1, isEntry.2⟩
      | succ position =>
        have isLater := isRest.entry position other isOther
        rwa [Nat.add_right_comm index 1 position] at isLater

/-! ## The parser -/

/-- A layout's ELF header starts at an `int` offset, which is the start of the
file when there is no container. -/
structure LoadContext.WellFormed (context : LoadContext) : Prop where
  elfOffset_le : context.elfOffset ≤ intMaxValue
  plain : context.isSelf = false → context.elfOffset = 0

theorem parseLayout_spec : ReadsReturning image LoadContext.WellFormed
      (parseLayout image : Loader Memory LoadContext) := by
  refine Ensures.ite (fun _ => readsReturning_throw _) fun large => ?_
  unfold elfHeaderSize at large
  have magicInside : SliceAccess.Inside image ⟨0, 4⟩ :=
    inside_of_nat (by omega : 0 + 4 ≤ image.length)
  refine (readsReturning_of_keeps (keeps_slice magicInside)).bind
    fun bytes _ => ?_
  refine Ensures.ite (fun _ => ?_) fun _ => Ensures.ite (fun _ => readsReturning_throw _)
    fun _ => readsReturning_pure ⟨by decide, fun _ => rfl⟩
  refine (readUnmanaged_spec (by decide) (by decide) _).bind
    fun selfHeader _ => ?_
  refine Ensures.ite (fun _ => ?_) fun _ => readsReturning_throw _
  refine (checkedInt_spec _).bind fun elfOffset isOffset => ?_
  refine (ensureRange_returning _ _).bind fun _ _ => ?_
  refine (readTable_spec (by decide) _ _ _ _ _).bind fun _ _ => ?_
  exact readsReturning_pure ⟨isOffset.1 ▸ isOffset.2, by rintro ⟨⟩⟩

theorem validateElfHeader_spec (header : ElfHeader) : ReadsReturning image
      (fun _ => header.programHeaderEntrySize.toNat = programHeaderSize)
      (validateElfHeader header : Loader Memory Unit) := by
  refine Ensures.ite (fun _ => readsReturning_throw _) fun _ => ?_
  refine Ensures.ite (fun _ => readsReturning_throw _) fun _ => ?_
  refine Ensures.ite (fun _ => readsReturning_throw _) fun _ => ?_
  refine Ensures.ite (fun _ => readsReturning_throw _) fun isKnown => ?_
  exact Ensures.ite (fun _ => readsReturning_throw _) fun _ =>
    readsReturning_pure (not_not.mp isKnown)

theorem LoadContext.WellFormed.elfOffset_lt {context : LoadContext}
    (wellFormed : context.WellFormed) : context.elfOffset < 2 ^ 64 :=
  Nat.lt_of_le_of_lt wellFormed.elfOffset_le (by decide)

structure HeaderAccepted (context : LoadContext) (header : ElfHeader) :
    Prop where
  wellFormed : context.WellFormed
  entrySize : header.programHeaderEntrySize.toNat = programHeaderSize

theorem parseElfHeader_spec : ReadsReturning image (fun parsed => HeaderAccepted parsed.1 parsed.2)
      (parseElfHeader image : Loader Memory (LoadContext × ElfHeader)) := by
  refine Ensures.ite (fun _ => readsReturning_throw _) fun _ => ?_
  refine parseLayout_spec.bind fun context wellFormed => ?_
  refine (readUnmanaged_spec (by decide) wellFormed.elfOffset_lt _).bind
    fun header _ => ?_
  refine (validateElfHeader_spec header).bind fun _ isKnown => ?_
  exact readsReturning_pure ⟨wellFormed, isKnown⟩

def ProgramHeadersRead (image : ImageData) (context : LoadContext)
    (header : ElfHeader) : List ProgramHeader → Prop :=
  TableRead image programHeaderSize header.programHeaderEntrySize.toNat
    (context.elfOffset + header.programHeaderOffset.toNat) ProgramHeader.ofSpan
    header.programHeaderCount.toNat 0

theorem parseProgramHeaders_spec (context : LoadContext) (header : ElfHeader) :
    ReadsReturning image (ProgramHeadersRead image context header)
      (parseProgramHeaders image context header : Loader Memory (List ProgramHeader)) := by
  refine Ensures.ite (fun isEmpty => ?_) fun _ => ?_
  · apply readsReturning_pure
    constructor
    · rw [isEmpty]
      rfl
    · rintro position entry ⟨⟩
  refine Ensures.ite (fun _ => readsReturning_throw _) fun _ => ?_
  refine (checkedInt_spec _).bind fun _ isOffset => ?_
  obtain ⟨rfl, _⟩ := isOffset
  refine (checkedInt_spec _).bind fun _ isTable => ?_
  obtain ⟨rfl, _⟩ := isTable
  refine (ensureRange_returning _ _).bind fun _ _ => ?_
  exact readTable_spec (by decide) _ _ _ _ _

structure ParsedImage.Faithful (image : ImageData) (parsed : ParsedImage) :
    Prop where
  accepted : HeaderAccepted parsed.context parsed.elfHeader
  table : ProgramHeadersRead image parsed.context parsed.elfHeader
    parsed.programHeaders

theorem parseImage_spec : ReadsReturning image (ParsedImage.Faithful image)
      (parseImage image : Loader Memory ParsedImage) := by
  refine parseElfHeader_spec.bind fun parsed accepted => ?_
  refine (parseProgramHeaders_spec _ _).bind fun _ isTable => ?_
  exact readsReturning_pure ⟨accepted, isTable⟩

/-! ## File data -/

theorem castInt_of_le {value : UInt64} (isInt : value.toNat ≤ intMaxValue) :
    castInt value = value.toNat := by
  unfold intMaxValue at isInt
  exact Int.bmod_eq_of_le (by omega) (by omega)

/-- The conversions to `int` after the checks lose nothing. -/
theorem readFileData_inside {sourceOffset fileSize : UInt64} (nonempty : fileSize ≠ 0)
    (inside : sourceOffset.toNat + fileSize.toNat ≤ image.length) :
    (readFileData image sourceOffset fileSize : Loader Memory (List UInt8)) = (do
        recordRead sourceOffset.toNat fileSize.toNat
        pure ((image.bytes.drop sourceOffset.toNat).take fileSize.toNat)) := by
  have isInt : image.length ≤ intMaxValue := image.length_le
  have small : ¬ fileSize > .ofNat intMaxValue := by
    rw [gt_iff_lt, UInt64.lt_iff_toNat_lt, UInt64.toNat_ofNat_of_lt' (by decide)]
    omega
  have sliced := inside_of_nat inside
  unfold SliceAccess.Inside at sliced
  rw [readFileData, if_neg nonempty, if_neg small, ensureRange_inside inside,
    pure_bind, castInt_of_le (by omega), castInt_of_le (by omega), slice]
  simp only [if_pos sliced, Int.toNat_natCast]

theorem keeps_readFileData (sourceOffset fileSize : UInt64) : Keeps (ReadsInside image)
      (readFileData image sourceOffset fileSize : Loader Memory (List UInt8)) := by
  by_cases nonempty : fileSize = 0
  · rw [readFileData, if_pos nonempty]
    exact keeps_pure _
  by_cases inside : sourceOffset.toNat + fileSize.toNat ≤ image.length
  · rw [readFileData_inside nonempty inside]
    exact (keeps_recordRead (inside_of_nat inside)).bind fun _ => keeps_pure _
  · obtain ⟨message, isThrow⟩ : ∃ message, (ensureRange image.length sourceOffset fileSize :
          Loader Memory Unit) = throw (.invalidData message) :=
      ensureRange_outside inside
    rw [readFileData, if_neg nonempty, isThrow]
    exact Keeps.ite (fun _ => keeps_throw _) fun _ => keeps_throw _

theorem keeps_onMemory (program : Faulting LoadFault Memory Value) :
    Keeps (ReadsInside image) (onMemory program) := by
  intro state holds
  unfold onMemory
  rw [outcome_within]
  constructor
  · intro value after ended
    obtain ⟨_, rfl⟩ := Prod.mk.inj ended
    exact holds
  · intro fault after ended
    obtain ⟨_, rfl⟩ := Prod.mk.inj ended
    exact holds

theorem keeps_fromExcept (computed : Except LoadFault Value) :
    Keeps (ReadsInside image) (fromExcept computed : Loader Memory Value) := by
  cases computed with
  | ok value => exact keeps_pure _
  | error fault => exact keeps_throw _

variable (memory : IVirtualMemory Memory) (context : LoadContext)
variable (imageBase : UInt64)

theorem keeps_mapLoadSegment (index : ℕ) (header : ProgramHeader) : Keeps (ReadsInside image)
      (mapLoadSegment memory image context imageBase index header) := by
  refine Keeps.ite (fun _ => keeps_pure _) fun _ => ?_
  refine Keeps.ite (fun _ => keeps_throw _) fun _ => ?_
  refine (keeps_fromExcept _).bind fun sourceOffset => ?_
  exact (keeps_readFileData _ _).bind fun _ => keeps_onMemory _

theorem keeps_mapLoadSegments (headers : List ProgramHeader) (index : ℕ) : Keeps (ReadsInside image)
      (mapLoadSegments memory image context imageBase headers index) := by
  induction headers generalizing index with
  | nil => exact keeps_pure _
  | cons header rest ih =>
    exact (keeps_mapLoadSegment memory context imageBase index header).bind
      fun _ => ih (index + 1)

theorem keeps_loadSegments : Keeps (ReadsInside image) (loadSegments memory image imageBase) := by
  refine Keeps.bind parseImage_spec.keeps fun parsed => ?_
  exact (keeps_mapLoadSegments memory parsed.context imageBase _ _).bind
    fun _ => keeps_pure _

end SelfLoader
end SharpEmu
