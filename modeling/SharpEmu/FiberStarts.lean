import SharpEmu.FiberTables

/-!
# The start of a fiber

A run of a fiber for which no continuation is saved goes on at the entry point
in its object, with the argument there and on the stack of its context or, when
it has none, on the root stack.  Attaching a context first writes the words of
the context and leaves the others.
-/

namespace SharpEmu

namespace Fiber

open Addressed Faulting

/-! ## Stacks -/

def OnStack (address size rsp : UInt64) : Prop :=
  (rsp - address).toNat < size.toNat

def OnRootStack (top rsp : UInt64) : Prop :=
  top.toNat - 24 ≤ rsp.toNat ∧ rsp.toNat < top.toNat

theorem toNat_alignedEnd (stackEnd : UInt64) : (stackEnd &&& ~~~(15 : UInt64)).toNat =
      stackEnd.toNat - stackEnd.toNat % 16 := by
  have isRest : (stackEnd &&& 15).toNat = stackEnd.toNat % 16 := by
    rw [UInt64.toNat_and]
    exact Nat.and_two_pow_sub_one_eq_mod _ 4
  rw [Word64.toNat_and_not, isRest]

theorem entryRsp_of_layout {stackEnd : UInt64} {layout : InitialStackLayout}
    (isLayout : tryCalculateInitialStackLayout stackEnd = some layout) :
    layout.entryRsp.toNat = stackEnd.toNat - stackEnd.toNat % 16 - 8 ∧ 16 ≤ stackEnd.toNat := by
  unfold tryCalculateInitialStackLayout at isLayout
  dsimp only at isLayout
  split at isLayout
  · cases isLayout
  · next large =>
    cases isLayout
    have isLarge : (16 : UInt64) ≤ stackEnd &&& ~~~(15 : UInt64) :=
      UInt64.not_lt.mp large
    have above := UInt64.le_iff_toNat_le.mp isLarge
    rw [toNat_alignedEnd] at above
    change 16 ≤ stackEnd.toNat - stackEnd.toNat % 16 at above
    have eight : (8 : UInt64) ≤ stackEnd &&& ~~~(15 : UInt64) := by
      rw [UInt64.le_iff_toNat_le, toNat_alignedEnd]
      change 8 ≤ stackEnd.toNat - stackEnd.toNat % 16
      omega
    dsimp only
    rw [UInt64.toNat_sub_of_le _ _ eight, toNat_alignedEnd]
    change stackEnd.toNat - stackEnd.toNat % 16 - 8 = _ ∧ _
    omega

theorem onStack_of_layout {fields : FiberFields} {rootTop stackEnd : UInt64}
    {layout : InitialStackLayout}
    (isEnd : initialStackEnd fields rootTop = some stackEnd)
    (isLayout : tryCalculateInitialStackLayout stackEnd = some layout)
    (hasContext : fields.contextAddress ≠ 0) :
    OnStack fields.contextAddress fields.contextSize layout.entryRsp := by
  obtain ⟨isRsp, large⟩ := entryRsp_of_layout isLayout
  unfold initialStackEnd at isEnd
  rw [if_neg hasContext] at isEnd
  split at isEnd
  · cases isEnd
  · next notSmall =>
    cases isEnd
    have sizeLarge : 512 ≤ fields.contextSize.toNat :=
      UInt64.le_iff_toNat_le.mp (UInt64.not_lt.mp notSmall)
    have addressLt := fields.contextAddress.toNat_lt
    have sizeLt := fields.contextSize.toNat_lt
    rw [UInt64.toNat_add] at isRsp large
    unfold OnStack
    rw [UInt64.toNat_sub, isRsp]
    omega

theorem onRootStack_of_layout {fields : FiberFields}
    {rootTop stackEnd : UInt64} {layout : InitialStackLayout}
    (isEnd : initialStackEnd fields rootTop = some stackEnd)
    (isLayout : tryCalculateInitialStackLayout stackEnd = some layout)
    (noContext : fields.contextAddress = 0) :
    OnRootStack rootTop layout.entryRsp := by
  obtain ⟨isRsp, large⟩ := entryRsp_of_layout isLayout
  unfold initialStackEnd at isEnd
  rw [if_pos noContext] at isEnd
  split at isEnd
  · cases isEnd
  · cases isEnd
    rw [toNat_alignedEnd] at isRsp large
    unfold OnRootStack
    omega

/-! ## Words of an object -/

def fiberObjectSize : ℕ := 108

def HasWord (address value : UInt64) (state : FiberState) : Prop :=
  state.memory.tryReadUInt64 address = some value

section Words

variable {address value : UInt64} {error : UInt32}

theorem keeps_write_apart {other : UInt64} {data : List UInt8}
    (fits : data.length ≤ 2 ^ 64) (apart : Apart other data.length address 8) :
    Keeps (HasWord address value) (write other data error) := by
  apply ensures_write
  · exact fun _ hasWord _ => hasWord
  · intro state memory hasWord written
    exact (GuardedMemory.tryReadUInt64_of_tryWrite_apart written fits apart).trans hasWord

theorem keeps_writeAll_apart {ranges : Ranges} (apart : ∀ range ∈ ranges, range.2.length ≤ 2 ^ 64 ∧
      Apart range.1 range.2.length address 8) :
    Keeps (HasWord address value) (writeAll error ranges) := by
  induction ranges with
  | nil => exact keeps_pure ()
  | cons range rest ih =>
    obtain ⟨fits, isApart⟩ := apart range List.mem_cons_self
    exact (keeps_write_apart fits isApart).bind fun _ =>
      ih (List.forall_mem_cons.mp apart).2

theorem ensures_writeAll_word (front : Ranges) {back : Ranges}
    (apart : ∀ range ∈ back, range.2.length ≤ 2 ^ 64 ∧ Apart range.1 range.2.length address 8) :
    Ensures (fun _ => True) (writeAll error (front ++ word64 address value :: back))
      (fun _ => HasWord address value) (fun _ => True) := by
  induction front with
  | nil =>
    have first : Ensures (fun _ => True) (write address (bytesOf 8 value.toNat) error)
        (fun _ => HasWord address value) (fun _ => True) :=
      ensures_write (fun _ _ _ => trivial) fun state memory _ written =>
        tryReadUInt64_of_tryWriteUInt64 written
    exact first.bind fun _ => (keeps_writeAll_apart apart).imp
      (fun _ hasWord => hasWord) (fun _ _ hasWord => hasWord)
      fun _ _ => trivial
  | cons range front ih =>
    exact (ensures_true _).bind fun _ => ih

end Words

theorem words_of_tryReadFiberFields {memory : GuardedMemory} {fiber : UInt64} {fields : FiberFields}
    (isRead : tryReadFiberFields memory fiber = some fields) :
    memory.tryReadUInt64 (fiber + fiberEntryOffset) = some fields.entry ∧
      memory.tryReadUInt64 (fiber + fiberArgOnInitializeOffset) = some fields.argOnInitialize ∧
      memory.tryReadUInt64 (fiber + fiberContextAddressOffset) = some fields.contextAddress ∧
      memory.tryReadUInt64 (fiber + fiberContextSizeOffset) = some fields.contextSize := by
  unfold tryReadFiberFields at isRead
  obtain ⟨state, _, isRead⟩ := Option.bind_eq_some_iff.mp isRead
  obtain ⟨entry, isEntry, isRead⟩ := Option.bind_eq_some_iff.mp isRead
  obtain ⟨argument, isArgument, isRead⟩ := Option.bind_eq_some_iff.mp isRead
  obtain ⟨address, isAddress, isRead⟩ := Option.bind_eq_some_iff.mp isRead
  obtain ⟨size, isSize, isRead⟩ := Option.bind_eq_some_iff.mp isRead
  obtain ⟨flags, _, isRead⟩ := Option.bind_eq_some_iff.mp isRead
  obtain ⟨name, _, isRead⟩ := Option.bind_eq_some_iff.mp isRead
  cases isRead
  exact ⟨isEntry, isArgument, isAddress, isSize⟩

/-! ## Attaching -/

structure StartWords where
  entry : UInt64
  argOnInitialize : UInt64
  contextAddress : UInt64
  contextSize : UInt64

def StartWords.Held (words : StartWords) (fiber : UInt64) (state : FiberState) : Prop :=
  HasWord (fiber + fiberEntryOffset) words.entry state ∧
    HasWord (fiber + fiberArgOnInitializeOffset) words.argOnInitialize state ∧
    HasWord (fiber + fiberContextAddressOffset) words.contextAddress state ∧
    HasWord (fiber + fiberContextSizeOffset) words.contextSize state

theorem word64_apart (base value : UInt64) {first second : UInt64}
    (apart : first.toNat + 8 ≤ second.toNat ∨ second.toNat + 8 ≤ first.toNat)
    (small : first.toNat < 1024 ∧ second.toNat < 1024) :
    (word64 (base + first) value).2.length ≤ 2 ^ 64 ∧ Apart (word64 (base + first) value).1
        (word64 (base + first) value).2.length (base + second) 8 := by
  unfold word64
  dsimp only
  rw [length_bytesOf]
  exact ⟨by decide, apart_of_offsets base apart (by omega) (by omega)⟩

theorem signature_apart {fiber address offset : UInt64}
    (apart : Apart address 8 fiber fiberObjectSize)
    (inside : offset.toNat + 8 ≤ fiberObjectSize) :
    (word64 address fiberStackSignature).2.length ≤ 2 ^ 64 ∧
      Apart (word64 address fiberStackSignature).1
        (word64 address fiberStackSignature).2.length (fiber + offset) 8 := by
  unfold word64
  dsimp only
  rw [length_bytesOf]
  exact ⟨by decide, apart.offset inside⟩

theorem ensures_writeAll_attachedContext {fiber address size : UInt64}
    {words : StartWords} (apart : Apart address 8 fiber fiberObjectSize) :
    Ensures (words.Held fiber) (writeAll fiberErrorInvalid (attachedContext fiber address size))
      (fun _ => StartWords.Held { words with contextAddress := address, contextSize := size } fiber)
      (fun _ => True) := by
  have keeps {offset value : UInt64} (before : offset.toNat + 8 ≤ 24) :
      Keeps (HasWord (fiber + offset) value)
        (writeAll fiberErrorInvalid (attachedContext fiber address size)) := by
    apply keeps_writeAll_apart
    have small : offset.toNat < 1024 := by omega
    simp only [attachedContext, List.forall_mem_cons]
    exact ⟨word64_apart _ _ (.inr before) ⟨by decide, small⟩,
      word64_apart _ _ (.inr (before.trans (by decide))) ⟨by decide, small⟩,
      word64_apart _ _ (.inr (before.trans (by decide))) ⟨by decide, small⟩,
      word64_apart _ _ (.inr (before.trans (by decide))) ⟨by decide, small⟩,
      signature_apart apart (before.trans (by decide)), by simp⟩
  have writesAddress : Ensures (fun _ => True)
      (writeAll fiberErrorInvalid (attachedContext fiber address size))
      (fun _ => HasWord (fiber + fiberContextAddressOffset) address)
      (fun _ => True) := by
    apply ensures_writeAll_word []
    simp only [List.forall_mem_cons]
    exact ⟨word64_apart _ _ (by decide) (by decide), word64_apart _ _ (by decide) (by decide),
      word64_apart _ _ (by decide) (by decide),
      signature_apart apart (by decide), by simp⟩
  have writesSize : Ensures (fun _ => True)
      (writeAll fiberErrorInvalid (attachedContext fiber address size))
      (fun _ => HasWord (fiber + fiberContextSizeOffset) size)
      (fun _ => True) := by
    apply ensures_writeAll_word [_]
    simp only [List.forall_mem_cons]
    exact ⟨word64_apart _ _ (by decide) (by decide), word64_apart _ _ (by decide) (by decide),
      signature_apart apart (by decide), by simp⟩
  exact (((keeps (by decide)).and (keeps (by decide))).and (writesAddress.and writesSize)).imp
      (fun _ held => ⟨⟨held.1, held.2.1⟩, trivial, trivial⟩)
      (fun _ _ held => ⟨held.1.1, held.1.2, held.2⟩) fun _ _ => trivial

/-! ## Starting -/

def StartWords.OnStackOf (words : StartWords) (rootTop rsp : UInt64) : Prop :=
  (words.contextAddress ≠ 0 → OnStack words.contextAddress words.contextSize rsp) ∧
    (words.contextAddress = 0 → OnRootStack rootTop rsp)

structure StartsFrom (words : StartWords) (argOnRun rootTop : UInt64)
    (target : GuestCpuContinuation) : Prop where
  rip : target.rip = words.entry
  rdi : target.rdi = words.argOnInitialize
  rsi : target.rsi = argOnRun
  onStack : words.OnStackOf rootTop target.rsp

theorem ensures_createInitialContinuation (ctx : CpuContext)
    (argOnRun rootTop : UInt64) {fields : FiberFields} {words : StartWords}
    (entry : fields.entry = words.entry)
    (argument : fields.argOnInitialize = words.argOnInitialize)
    (address : fields.contextAddress = words.contextAddress)
    (size : fields.contextSize = words.contextSize) :
    Ensures (fun _ => True) (createInitialContinuation ctx fields argOnRun rootTop)
      (fun target _ => StartsFrom words argOnRun rootTop target.context)
      (fun _ => True) := by
  apply ensures_orRefuse_bind fun _ _ _ => trivial
  intro stackEnd isEnd
  apply ensures_orRefuse_bind fun _ _ _ => trivial
  intro layout isLayout
  apply (ensures_true _).bind
  intro _
  apply ensures_pure
  intro _ _
  constructor
  · exact entry
  · exact argument
  · rfl
  · unfold StartWords.OnStackOf
    rw [← address, ← size]
    exact ⟨onStack_of_layout isEnd isLayout, onRootStack_of_layout isEnd isLayout⟩

theorem words_of_held {words : StartWords} {fiber : UInt64}
    {state : FiberState} {fields : FiberFields} (held : words.Held fiber state)
    (isRead : tryReadFiberFields state.memory fiber = some fields) :
    fields.entry = words.entry ∧ fields.argOnInitialize = words.argOnInitialize ∧
      fields.contextAddress = words.contextAddress ∧
      fields.contextSize = words.contextSize := by
  obtain ⟨entry, argument, address, size⟩ := words_of_tryReadFiberFields isRead
  obtain ⟨heldEntry, heldArgument, heldAddress, heldSize⟩ := held
  exact ⟨Option.some.inj (entry.symm.trans heldEntry),
    Option.some.inj (argument.symm.trans heldArgument),
    Option.some.inj (address.symm.trans heldAddress),
    Option.some.inj (size.symm.trans heldSize)⟩

theorem ensures_transfer_starts {caller : Caller} {frame : GuestImportCallFrame}
    {run : Run} {words : StartWords} {previousFiber rootTop : UInt64} :
    Ensures (fun state => NoneSaved run.fiber state ∧ words.Held run.fiber state ∧
        rootStackTop caller frame state = rootTop)
      (transfer caller frame run previousFiber)
      (fun target _ => StartsFrom words run.argOnRun rootTop target)
      (fun _ => True) := by
  apply ensures_get_bind
  rintro state ⟨unsaved, held, isTop⟩
  apply ensures_orRefuse_bind fun _ _ _ => trivial
  intro fields isFields
  obtain ⟨entry, argument, address, size⟩ := words_of_held held isFields
  apply ensures_refuse_bind fun _ _ _ => trivial
  intro _
  have prepares : Ensures (fun other => other = state)
      (prepareTarget caller frame fields run.fiber run.argOnRun)
      (fun result _ => StartsFrom words run.argOnRun rootTop result.1.context)
      (fun _ => True) := by
    apply ensures_get_bind
    rintro _ rfl
    rw [unsaved, isTop]
    have creates := ensures_createInitialContinuation caller.ctx run.argOnRun
      rootTop entry argument address size
    exact (creates.ofPre fun _ _ => trivial).bind fun _ =>
      ensures_pure fun _ starts => starts
  apply prepares.bind
  rintro ⟨target, resumed⟩
  apply Ensures.assuming (fun _ starts => starts)
  intro starts
  exact (ensures_true _).bind fun _ => (ensures_true _).bind fun _ =>
    (ensures_true _).bind fun _ => ensures_pure fun _ _ =>
      ⟨starts.rip, starts.rdi, starts.rsi, starts.onStack⟩

def StartWords.attached (words : StartWords) (run : Run) : StartWords :=
  if run.Attaches then
    { words with
      contextAddress := run.attachContextAddress
      contextSize := run.attachContextSize }
  else words

theorem StartWords.attached_entry (words : StartWords) (run : Run) :
    (words.attached run).entry = words.entry := by
  unfold StartWords.attached
  split <;> rfl

theorem StartWords.attached_argOnInitialize (words : StartWords) (run : Run) :
    (words.attached run).argOnInitialize = words.argOnInitialize := by
  unfold StartWords.attached
  split <;> rfl

theorem ensures_attachContext_words {fiber address size : UInt64}
    {fields : FiberFields} {words : StartWords}
    (apart : Apart address 8 fiber fiberObjectSize) :
    Ensures (words.Held fiber) (attachContext fiber address size fields)
      (fun _ state => fields.contextAddress = 0 ∧ StartWords.Held { words with
          contextAddress := address
          contextSize := size } fiber state)
      (fun _ => True) := by
  have checks : Ensures (words.Held fiber) (checkAttached address size fields)
      (fun _ state => fields.contextAddress = 0 ∧ words.Held fiber state)
      (fun _ => True) := by
    apply ensures_refuse_bind fun _ _ _ => trivial
    intro _
    apply ensures_refuse_bind fun _ _ _ => trivial
    intro _
    apply ensures_refuse fun _ _ _ => trivial
    intro state held passes
    exact ⟨by_contra fun hasContext =>
      passes (.inr (.inr (.inr hasContext))), held⟩
  apply checks.bind
  intro _
  apply Ensures.assuming (fun _ both => both.1)
  intro noContext
  exact ((ensures_writeAll_attachedContext apart).ofPre fun _ both => both.2).bind
    fun _ => ensures_modify fun _ held => ⟨noContext, held⟩

theorem ensures_attachWhenGiven {run : Run} {fields : FiberFields}
    {words : StartWords} {start : FiberState}
    (unsaved : NoneSaved run.fiber start) (held : words.Held run.fiber start)
    (apart : run.Attaches → Apart run.attachContextAddress 8 run.fiber fiberObjectSize)
    (sameContext : fields.contextAddress = words.contextAddress) :
    Ensures (fun state => state = start) (attachWhenGiven run fields)
      (fun _ state => (run.Attaches → words.contextAddress = 0) ∧ NoneSaved run.fiber state ∧
        (words.attached run).Held run.fiber state ∧
        state.threadStates = start.threadStates)
      (fun _ => True) := by
  unfold attachWhenGiven StartWords.attached
  by_cases attaches : run.Attaches
  · have keeps : Keeps (fun state => NoneSaved run.fiber state ∧
          state.threadStates = start.threadStates)
        (attachContext run.fiber run.attachContextAddress run.attachContextSize fields) :=
      keeps_attachContext (fun _ _ both => both) fun _ _ both => both
    rw [if_pos attaches, if_pos attaches]
    apply ((ensures_attachContext_words (apart attaches)).and keeps).imp
    · rintro _ rfl
      exact ⟨held, unsaved, rfl⟩
    · rintro _ state ⟨⟨noContext, heldThen⟩, unsavedThen, sameThreads⟩
      exact ⟨fun _ => sameContext.symm.trans noContext, unsavedThen, heldThen, sameThreads⟩
    · exact fun _ _ => trivial
  · rw [if_neg attaches, if_neg attaches]
    apply ensures_pure
    rintro _ rfl
    exact ⟨fun isAttached => absurd isAttached attaches, unsaved, held, rfl⟩

theorem ensures_fiberRunCore_starts {caller : Caller} {run : Run}
    {words : StartWords} {start : FiberState}
    (unsaved : NoneSaved run.fiber start) (held : words.Held run.fiber start)
    (apart : run.Attaches → Apart run.attachContextAddress 8 run.fiber fiberObjectSize) :
    Ensures (fun state => state = start) (fiberRunCore caller run)
      (fun target _ => (run.Attaches → words.contextAddress = 0) ∧
        ∃ frame, caller.transferFrame = some frame ∧ StartsFrom (words.attached run) run.argOnRun
            (rootStackTop caller frame start) target)
      (fun _ => True) := by
  apply Ensures.bind (keeps_validateFiber.imp (fun _ isStart => isStart)
    (fun _ _ isStart => isStart) fun _ _ => trivial)
  intro _
  apply ensures_get_bind
  rintro start rfl
  apply ensures_orRefuse_bind fun _ _ _ => trivial
  intro fields isFields
  have sameContext := (words_of_held held isFields).2.2.1
  apply (ensures_attachWhenGiven unsaved held apart sameContext).bind
  intro _
  apply ensures_get_bind
  rintro state ⟨noContext, unsavedThen, heldThen, sameThreads⟩
  have sameTop (frame : GuestImportCallFrame) :
      rootStackTop caller frame state = rootStackTop caller frame start := by
    unfold rootStackTop
    rw [sameThreads]
  apply ensures_refuse_bind fun _ _ _ => trivial
  intro _
  apply ensures_refuse_bind fun _ _ _ => trivial
  intro _
  apply ensures_orRefuse_bind fun _ _ _ => trivial
  intro frame isFrame
  have starts : Ensures (fun other => other = state)
      (transfer caller frame run (resolveCurrentFiberAddress caller state))
      (fun target _ => StartsFrom (words.attached run) run.argOnRun
        (rootStackTop caller frame start) target) (fun _ => True) := by
    apply ensures_transfer_starts.ofPre
    rintro _ rfl
    exact ⟨unsavedThen, heldThen, sameTop frame⟩
  apply starts.bind
  intro target
  apply Ensures.assuming (fun _ isStart => isStart)
  intro isStart
  exact (ensures_true _).bind fun _ =>
    ensures_pure fun _ _ => ⟨noContext, frame, isFrame, isStart⟩

theorem ensures_fiberRunCore_reads {caller : Caller} {run : Run} {start : FiberState} :
    Ensures (fun state => state = start) (fiberRunCore caller run)
      (fun _ _ => ∃ words : StartWords, words.Held run.fiber start)
      (fun _ => True) := by
  apply Ensures.bind (keeps_validateFiber.imp (fun _ isStart => isStart)
    (fun _ _ isStart => isStart) fun _ _ => trivial)
  intro _
  apply ensures_get_bind
  rintro start rfl
  apply ensures_orRefuse_bind fun _ _ _ => trivial
  intro fields isFields
  apply (ensures_true _).toPost
  intro _ _ _
  exact ⟨⟨fields.entry, fields.argOnInitialize, fields.contextAddress,
    fields.contextSize⟩, words_of_tryReadFiberFields isFields⟩

end Fiber

end SharpEmu
