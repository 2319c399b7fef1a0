import SharpEmu.SelfLoaderReads

/-!
# What parsing an image throws and returns

The headers are rejected with the loader's own exceptions, except that the start
of the program header table may not fit an `int`.  The entries that are returned
are those of the file at their exact offsets.
-/

namespace SharpEmu
namespace SelfLoader

open Faulting

variable {Memory Value : Type} {image : ImageData}

/-! ## Exceptions -/

abbrev ThrowsDeclared (program : Loader Memory Value) : Prop :=
  ThrowsOnly LoadFault.Declared program

theorem throwsDeclared_invalidData (message : String) :
    ThrowsDeclared (throw (.invalidData message) : Loader Memory Value) :=
  throwsOnly_throw trivial

theorem throwsDeclared_ensureRange (length : ℕ) (offset size : UInt64) :
    ThrowsDeclared (ensureRange length offset size : Loader Memory Unit) :=
  ThrowsOnly.ite (fun _ => throwsDeclared_invalidData _) fun _ =>
    ThrowsOnly.ite (fun _ => throwsDeclared_invalidData _)
      fun _ => throwsOnly_pure _

theorem returns_ensureRange {offset size : UInt64} :
    Returns (fun _ => offset.toNat + size.toNat ≤ image.length)
      (ensureRange image.length offset size : Loader Memory Unit) :=
  ensureRange_spec.toPost fun _ _ known => known.2

theorem throwsDeclared_readUnmanaged (size : ℕ) (ofSpan : (ℕ → UInt8) → Value) (offset : ℕ) :
    ThrowsDeclared (readUnmanaged size ofSpan image offset : Loader Memory Value) :=
  (throwsDeclared_ensureRange _ _ _).bind fun _ =>
    (throwsOnly_modify _).bind fun _ => throwsOnly_pure _

variable {value : ℕ}

theorem checkedInt_of_le (isInt : value ≤ intMaxValue) :
    (checkedInt value : Loader Memory ℕ) = pure value :=
  if_pos isInt

theorem checkedInt_of_lt (beyond : intMaxValue < value) :
    (checkedInt value : Loader Memory ℕ) = throw .overflow :=
  if_neg (Nat.not_le.mpr beyond)

theorem throwsDeclared_readTable {size stride tableOffset remaining index : ℕ}
    {ofSpan : (ℕ → UInt8) → Value}
    (fits : tableOffset + (index + remaining) * stride ≤ intMaxValue) :
    ThrowsDeclared (readTable size stride tableOffset ofSpan image remaining index :
        Loader Memory (List Value)) := by
  induction remaining generalizing index with
  | zero => exact throwsOnly_pure _
  | succ remaining ih =>
    have entryBelow : index * stride ≤ (index + (remaining + 1)) * stride :=
      Nat.mul_le_mul_right stride (by omega)
    have restFits : tableOffset + (index + 1 + remaining) * stride ≤ intMaxValue := by
      rwa [Nat.add_assoc index 1, Nat.add_comm 1]
    rw [readTable, checkedInt_of_le (by omega), pure_bind]
    refine (throwsDeclared_readUnmanaged _ _ _).bind fun _ => ?_
    exact (ih restFits).bind fun _ => throwsOnly_pure _

theorem throwsDeclared_slice {offset size : ℤ} (inside : SliceAccess.Inside image ⟨offset, size⟩) :
    ThrowsDeclared (slice image offset size : Loader Memory (List UInt8)) := by
  refine (throwsOnly_modify _).bind fun _ => ?_
  exact ThrowsOnly.ite (fun _ => throwsOnly_pure _)
    fun outside => absurd inside outside

theorem throwsDeclared_parseLayout :
    ThrowsDeclared (parseLayout image : Loader Memory LoadContext) := by
  refine ThrowsOnly.ite (fun _ => throwsDeclared_invalidData _) fun large => ?_
  unfold elfHeaderSize at large
  have magicInside : SliceAccess.Inside image ⟨0, 4⟩ :=
    inside_of_nat (by omega : 0 + 4 ≤ image.length)
  refine (throwsDeclared_slice magicInside).bind fun bytes => ?_
  refine ThrowsOnly.ite (fun _ => ?_) fun _ => ThrowsOnly.ite
    (fun _ => throwsDeclared_invalidData _) fun _ => throwsOnly_pure _
  refine (throwsDeclared_readUnmanaged _ _ _).bind fun selfHeader => ?_
  refine ThrowsOnly.ite (fun _ => ?_) fun _ => throwsDeclared_invalidData _
  -- The table's length comes from 16 bits of the file.
  have countSmall := selfHeader.segmentCount.toNat_lt
  have elfOffsetInt : selfHeaderSize +
      selfHeader.segmentCount.toNat * selfSegmentSize ≤ intMaxValue := by
    unfold selfHeaderSize selfSegmentSize intMaxValue
    omega
  simp only [checkedInt_of_le elfOffsetInt, pure_bind]
  refine (throwsDeclared_ensureRange _ _ _).bind fun _ => ?_
  have tableFits : selfHeaderSize +
      (0 + selfHeader.segmentCount.toNat) * selfSegmentSize ≤ intMaxValue := by
    rwa [Nat.zero_add]
  exact (throwsDeclared_readTable tableFits).bind fun _ => throwsOnly_pure _

theorem throwsDeclared_validateElfHeader (header : ElfHeader) :
    ThrowsDeclared (validateElfHeader header : Loader Memory Unit) := by
  refine ThrowsOnly.ite (fun _ => throwsDeclared_invalidData _) fun _ => ?_
  refine ThrowsOnly.ite (fun _ => throwsDeclared_invalidData _) fun _ => ?_
  refine ThrowsOnly.ite (fun _ => throwsDeclared_invalidData _) fun _ => ?_
  refine ThrowsOnly.ite (fun _ => throwsDeclared_invalidData _) fun _ => ?_
  exact ThrowsOnly.ite (fun _ => throwsDeclared_invalidData _)
    fun _ => throwsOnly_pure _

theorem throwsDeclared_parseElfHeader : ThrowsDeclared
      (parseElfHeader image : Loader Memory (LoadContext × ElfHeader)) := by
  refine ThrowsOnly.ite (fun _ => throwsDeclared_invalidData _) fun _ => ?_
  refine throwsDeclared_parseLayout.bind fun context => ?_
  refine (throwsDeclared_readUnmanaged _ _ _).bind fun header => ?_
  exact (throwsDeclared_validateElfHeader header).bind fun _ => throwsOnly_pure _

def TableOffsetFits (context : LoadContext) (header : ElfHeader) : Prop :=
  header.programHeaderCount ≠ 0 → context.elfOffset + header.programHeaderOffset.toNat ≤ intMaxValue

theorem toNat_tableSize (header : ElfHeader) : (header.programHeaderCount.toUInt64 *
      header.programHeaderEntrySize.toUInt64).toNat = header.programHeaderCount.toNat *
          header.programHeaderEntrySize.toNat := by
  have countSmall := header.programHeaderCount.toNat_lt
  have sizeSmall := header.programHeaderEntrySize.toNat_lt
  have productSmall : header.programHeaderCount.toNat *
      header.programHeaderEntrySize.toNat < 2 ^ 16 * 2 ^ 16 :=
    Nat.mul_lt_mul'' countSmall sizeSmall
  rw [UInt64.toNat_mul, UInt16.toNat_toUInt64, UInt16.toNat_toUInt64]
  exact Nat.mod_eq_of_lt (by omega)

variable {context : LoadContext} {header : ElfHeader}

theorem parseProgramHeaders_fitting (isTable : header.programHeaderCount ≠ 0)
    (isKnown : header.programHeaderEntrySize.toNat = programHeaderSize)
    (fits : TableOffsetFits context header) :
    (parseProgramHeaders image context header : Loader Memory (List ProgramHeader)) = (do
        ensureRange image.length (.ofNat (context.elfOffset + header.programHeaderOffset.toNat))
          (header.programHeaderCount.toUInt64 * header.programHeaderEntrySize.toUInt64)
        readTable programHeaderSize header.programHeaderEntrySize.toNat
          (context.elfOffset + header.programHeaderOffset.toNat)
          ProgramHeader.ofSpan image header.programHeaderCount.toNat 0) := by
  have known : ¬ header.programHeaderEntrySize.toNat < programHeaderSize :=
    fun below => absurd isKnown (Nat.ne_of_lt below)
  have isInt := fits isTable
  rw [parseProgramHeaders, if_neg isTable, if_neg known,
    checkedInt_of_le (by omega), pure_bind, checkedInt_of_le isInt, pure_bind]

theorem throwsDeclared_parseProgramHeaders
    (isKnown : header.programHeaderEntrySize.toNat = programHeaderSize)
    (fits : TableOffsetFits context header) :
    ThrowsDeclared (parseProgramHeaders image context header :
      Loader Memory (List ProgramHeader)) := by
  by_cases isTable : header.programHeaderCount = 0
  · rw [parseProgramHeaders, if_pos isTable]
    exact throwsOnly_pure _
  rw [parseProgramHeaders_fitting isTable isKnown fits]
  refine (throwsDeclared_ensureRange _ _ _).bindReturning returns_ensureRange
    fun _ inside => ?_
  have isInt := fits isTable
  have imageInt : image.length ≤ intMaxValue := image.length_le
  have offsetSmall : context.elfOffset + header.programHeaderOffset.toNat < 2 ^ 64 :=
    Nat.lt_of_le_of_lt isInt (by decide)
  rw [UInt64.toNat_ofNat_of_lt' offsetSmall, toNat_tableSize] at inside
  apply throwsDeclared_readTable
  rw [Nat.zero_add]
  omega

theorem parseProgramHeaders_overflows
    (isKnown : header.programHeaderEntrySize.toNat = programHeaderSize)
    (beyond : ¬ TableOffsetFits context header) :
    (parseProgramHeaders image context header :
      Loader Memory (List ProgramHeader)) = throw .overflow := by
  obtain ⟨isTable, isBeyond⟩ := Classical.not_imp.mp beyond
  have known : ¬ header.programHeaderEntrySize.toNat < programHeaderSize :=
    fun below => absurd isKnown (Nat.ne_of_lt below)
  rw [parseProgramHeaders, if_neg isTable, if_neg known]
  by_cases isInt : header.programHeaderOffset.toNat ≤ intMaxValue
  · rw [checkedInt_of_le isInt, pure_bind, checkedInt_of_lt (Nat.not_le.mp isBeyond)]
    rfl
  · rw [checkedInt_of_lt (Nat.not_le.mp isInt)]
    rfl

theorem parseImage_declared_iff {state : LoaderState Memory} (holds : ReadsInside image state) :
    (∀ fault, ((parseImage image).outcome state).1 = .error fault → fault.Declared) ↔
      ∀ context header, ((parseElfHeader image).outcome state).1 = .ok (context, header) →
          TableOffsetFits context header := by
  unfold parseImage
  rw [outcome_bind]
  have headerThrows : ∀ fault, ((parseElfHeader image).outcome state).1 = .error fault →
        fault.Declared := throwsDeclared_parseElfHeader state
  rcases ended : (parseElfHeader image).outcome state with
    ⟨fault | ⟨context, header⟩, after⟩
  · rw [ended] at headerThrows
    refine ⟨fun _ _ _ isOk => (nomatch isOk), ?_⟩
    rintro _ _ ⟨⟩
    exact headerThrows fault rfl
  obtain ⟨_, accepted⟩ := (parseElfHeader_spec state holds).1 _ _ ended
  constructor
  · rintro declared _ _ ⟨⟩
    by_contra beyond
    have overflows := declared .overflow (by
      simp only [parseProgramHeaders_overflows accepted.entrySize beyond]
      rfl)
    exact overflows
  · intro fits
    have tableThrows : ThrowsDeclared
        (parseProgramHeaders image context header >>= fun programHeaders =>
          pure ⟨context, header, programHeaders⟩ : Loader Memory ParsedImage) :=
      (throwsDeclared_parseProgramHeaders accepted.entrySize
        (fits context header rfl)).bind fun _ => throwsOnly_pure _
    exact tableThrows after

end SelfLoader
end SharpEmu
