import SharpEmu.MachineWords
import SharpEmu.PrintfArguments

/-!
# The argument sources of printf agree

Both sources walk through the places of the calling convention.  They yield what the
call has put there, except that the registers' source does not see stack slots that
only the host's memory knows.
-/

namespace SharpEmu
namespace Printf

variable {ctx : CpuContext} {fixed : ℕ} {cursor : SysVAmd64VaListCursor}
variable {kinds : List ArgumentKind}

/-! ## The registers of the call -/

def CpuContext.registerRead (ctx : CpuContext) : ArgumentPlace → UInt64
  | .stack slot => (ctx.tryReadUInt64 (ctx.stackSlot slot)).getD 0
  | place => ctx.argumentAt place

variable {slot : ℕ}

theorem stackOffset_ofNat (small : slot < 2 ^ 31) :
    stackOffset (.ofNat slot) = .ofNat (8 * slot) := by
  unfold stackOffset
  rw [Int32.toInt64_ofNat' (by change (slot : ℤ) ≤ 2 ^ 31 - 1; omega),
    Int64.toUInt64_ofNat', UInt64.ofNat_mul, UInt64.mul_comm]
  rfl

theorem readStackArg_stackOffset (small : slot < 2 ^ 31) :
    ctx.readStackArg (stackOffset (.ofNat slot)) = ctx.registerRead (.stack slot) := by
  unfold CpuContext.readStackArg
  rw [stackOffset_ofNat small]
  unfold CpuContext.registerRead CpuContext.stackSlot
  rw [UInt64.add_assoc, UInt64.add_comm (.ofNat _), ← UInt64.add_assoc]

/-- The registers' source at a position, with room for more stack arguments. -/
structure RegistersAt (ctx : CpuContext) (budget : ℕ) (position : ArgumentPosition)
    (source : RegisterPrintfArgumentSource) : Prop where
  sameContext : source.ctx = ctx
  gpIndex : source.gpIndex = position.general
  fpIndex : source.fpIndex = position.vector
  stackIndex : source.stackIndex = .ofNat position.stack
  room : position.stack + budget ≤ 2 ^ 31

theorem registers_alike (ctx : CpuContext) :
    AnswersAlike ArgumentPosition.next registerArguments.next ctx.registerRead
      (RegistersAt ctx) where
  same_answer budget position source kind here := by
    obtain ⟨_, gpIndex, fpIndex, stackIndex⟩ := source
    obtain ⟨rfl, rfl, rfl, rfl, room⟩ := here
    cases kind with
    | integer =>
      simp only [ArgumentSource.next, registerArguments,
        RegisterPrintfArgumentSource.nextGpArg, ArgumentPosition.next]
      split
      · rfl
      · exact readStackArg_stackOffset (by omega)
    | float =>
      simp only [ArgumentSource.next, registerArguments,
        RegisterPrintfArgumentSource.nextFloatArg, ArgumentPosition.next]
      split
      · rfl
      · exact readStackArg_stackOffset (by omega)
  stays_related budget position source kind here := by
    obtain ⟨_, gpIndex, fpIndex, stackIndex⟩ := source
    obtain ⟨rfl, rfl, rfl, rfl, room⟩ := here
    have nextStack : (Int32.ofNat position.stack) + 1 = .ofNat (position.stack + 1) := by
      rw [Int32.ofNat_add]
      rfl
    cases kind with
    | integer =>
      simp only [ArgumentSource.next, registerArguments,
        RegisterPrintfArgumentSource.nextGpArg, ArgumentPosition.next]
      split
      · exact ⟨rfl, rfl, rfl, rfl, by dsimp only; omega⟩
      · exact ⟨rfl, rfl, rfl, nextStack, by dsimp only; omega⟩
    | float =>
      simp only [ArgumentSource.next, registerArguments,
        RegisterPrintfArgumentSource.nextFloatArg, ArgumentPosition.next]
      split
      · exact ⟨rfl, rfl, rfl, rfl, by dsimp only; omega⟩
      · exact ⟨rfl, rfl, rfl, nextStack, by dsimp only; omega⟩

/-! ## The argument list -/

structure CursorAt (ctx : CpuContext) (fixed : ℕ) (started : SysVAmd64VaListCursor)
    (position : ArgumentPosition) (cursor : SysVAmd64VaListCursor) : Prop where
  sameContext : cursor.ctx = started.ctx
  regSaveArea : cursor.regSaveArea = started.regSaveArea
  gpOffset : cursor.gpOffset.toNat = 8 * position.general
  fpOffset : cursor.fpOffset.toNat = 48 + 16 * position.vector
  overflowArgArea : cursor.overflowArgArea = ctx.stackSlot position.stack
  behindFixed : fixed ≤ position.general
  generalBound : position.general ≤ 6
  vectorBound : position.vector ≤ 8

variable {offset : UInt32} {count : ℕ}

theorem gpOffset_le_iff (isOffset : offset.toNat = 8 * count) :
    offset ≤ gpSaveAreaLimit - 8 ↔ count < 6 := by
  rw [UInt32.le_iff_toNat_le, isOffset]
  change 8 * count ≤ 40 ↔ count < 6
  omega

theorem fpOffset_le_iff (isOffset : offset.toNat = 48 + 16 * count) :
    offset ≤ fpSaveAreaLimit - 16 ↔ count < 8 := by
  rw [UInt32.le_iff_toNat_le, isOffset]
  change 48 + 16 * count ≤ 160 ↔ count < 8
  omega

theorem stackSlot_succ (slot : ℕ) : ctx.stackSlot slot + 8 = ctx.stackSlot (slot + 1) := by
  unfold CpuContext.stackSlot
  rw [Nat.mul_add, UInt64.ofNat_add, ← UInt64.add_assoc]
  rfl

theorem cursor_alike (started : VaStarted ctx fixed cursor) :
    AnswersAlike ArgumentPosition.next vaListArguments.next ctx.argumentAt
      (fun _ => CursorAt ctx fixed cursor) where
  same_answer _ position current kind here := by
    obtain ⟨sameContext, regSaveArea, gpOffset, fpOffset, overflowArgArea, behindFixed,
      generalBound, vectorBound⟩ := here
    have saveArea : current.regSaveArea ≠ 0 := regSaveArea ▸ started.regSaveArea
    have onStack : (current.ctx.tryReadUInt64Compat current.overflowArgArea).getD 0 =
        ctx.argumentAt (.stack position.stack) := by
      rw [sameContext, overflowArgArea, started.stackKept]
      rfl
    cases kind with
    | integer =>
      have offset : current.gpOffset.toUInt64 = .ofNat (8 * position.general) := by
        rw [← gpOffset, ← UInt32.toNat_toUInt64, UInt64.ofNat_toNat]
      simp only [ArgumentSource.next, vaListArguments,
        SysVAmd64VaListCursor.nextGpArg, ArgumentPosition.next,
        gpOffset_le_iff gpOffset, saveArea, ne_eq, not_false_eq_true, true_and]
      split
      · rename_i inRegisters
        rw [offset, sameContext, regSaveArea, started.generalSaved _ behindFixed inRegisters]
        rfl
      · exact onStack
    | float =>
      have offset : current.fpOffset.toUInt64 = .ofNat (48 + 16 * position.vector) := by
        rw [← fpOffset, ← UInt32.toNat_toUInt64, UInt64.ofNat_toNat]
      simp only [ArgumentSource.next, vaListArguments,
        SysVAmd64VaListCursor.nextFloatArg, ArgumentPosition.next,
        fpOffset_le_iff fpOffset, saveArea, ne_eq, not_false_eq_true, true_and]
      split
      · rename_i inRegisters
        rw [offset, sameContext, regSaveArea, started.vectorSaved _ inRegisters]
        rfl
      · exact onStack
  stays_related _ position current kind here := by
    obtain ⟨sameContext, regSaveArea, gpOffset, fpOffset, overflowArgArea, behindFixed,
      generalBound, vectorBound⟩ := here
    have saveArea : current.regSaveArea ≠ 0 := regSaveArea ▸ started.regSaveArea
    have nextStack : current.overflowArgArea + 8 = ctx.stackSlot (position.stack + 1) := by
      rw [overflowArgArea, stackSlot_succ]
    cases kind with
    | integer =>
      simp only [ArgumentSource.next, vaListArguments,
        SysVAmd64VaListCursor.nextGpArg, ArgumentPosition.next,
        gpOffset_le_iff gpOffset, saveArea, ne_eq, not_false_eq_true, true_and]
      split
      · refine ⟨sameContext, regSaveArea, ?_, fpOffset, overflowArgArea, by
          dsimp only; omega, by dsimp only; omega, vectorBound⟩
        change (current.gpOffset + 8).toNat = 8 * (position.general + 1)
        rw [UInt32.toNat_add, gpOffset]
        change (8 * position.general + 8) % 2 ^ 32 = _
        omega
      · exact ⟨sameContext, regSaveArea, gpOffset, fpOffset, nextStack, behindFixed,
          generalBound, vectorBound⟩
    | float =>
      simp only [ArgumentSource.next, vaListArguments,
        SysVAmd64VaListCursor.nextFloatArg, ArgumentPosition.next,
        fpOffset_le_iff fpOffset, saveArea, ne_eq, not_false_eq_true, true_and]
      split
      · refine ⟨sameContext, regSaveArea, gpOffset, ?_, overflowArgArea, behindFixed,
          generalBound, by dsimp only; omega⟩
        change (current.fpOffset + 16).toNat = 48 + 16 * (position.vector + 1)
        rw [UInt32.toNat_add, fpOffset]
        change (48 + 16 * position.vector + 16) % 2 ^ 32 = _
        omega
      · exact ⟨sameContext, regSaveArea, gpOffset, fpOffset, nextStack, behindFixed,
          generalBound, vectorBound⟩

/-! ## Agreement -/

theorem registersAt_start (fixed : ℕ) {budget : ℕ} (short : budget ≤ 2 ^ 31) :
    RegistersAt ctx budget ⟨fixed, 0, 0⟩ (.create ctx fixed) :=
  ⟨rfl, rfl, rfl, rfl, by dsimp only; omega⟩

theorem cursorAt_start (started : VaStarted ctx fixed cursor) (few : fixed ≤ 6) :
    CursorAt ctx fixed cursor ⟨fixed, 0, 0⟩ cursor := by
  refine ⟨rfl, rfl, started.gpOffset, by rw [started.fpOffset]; rfl, ?_, Nat.le_refl _,
    few, Nat.zero_le _⟩
  rw [started.overflowArgArea]
  exact (UInt64.add_zero _).symm

theorem answers_registers (fixed : ℕ) (short : kinds.length ≤ 2 ^ 31) :
    answers registerArguments.next (.create ctx fixed) kinds =
      (argumentPlaces fixed kinds).map ctx.registerRead :=
  (registers_alike ctx).answers_eq (registersAt_start fixed short)

theorem answers_vaList (started : VaStarted ctx fixed cursor) (few : fixed ≤ 6) :
    answers vaListArguments.next cursor kinds = (argumentPlaces fixed kinds).map ctx.argumentAt :=
  (cursor_alike started).answers_eq (cursorAt_start started few)

/-- A slot of the stack that guest memory holds, or that nothing but zero stands
in. -/
def CpuContext.SlotReadable (ctx : CpuContext) (slot : ℕ) : Prop :=
  (ctx.tryReadUInt64 (ctx.stackSlot slot)).isSome ∨
    (ctx.tryReadHostMemory (ctx.stackSlot slot)).getD 0 = 0

theorem registerRead_stack_iff :
    ctx.registerRead (.stack slot) = ctx.argumentAt (.stack slot) ↔ ctx.SlotReadable slot := by
  simp only [CpuContext.registerRead, CpuContext.argumentAt,
    CpuContext.tryReadUInt64Compat, CpuContext.SlotReadable]
  cases ctx.tryReadUInt64 (ctx.stackSlot slot) with
  | none => simp [eq_comm]
  | some value => simp

/-- Both sources yield the arguments that the calling convention has laid out exactly
when the registers' source can read each slot of the stack that they reach. -/
theorem sources_yield_arguments_iff (started : VaStarted ctx fixed cursor)
    (few : fixed ≤ 6) (kinds : List ArgumentKind) (short : kinds.length ≤ 2 ^ 31) :
    (answers registerArguments.next (.create ctx fixed) kinds =
        (argumentPlaces fixed kinds).map ctx.argumentAt ∧
      answers vaListArguments.next cursor kinds = (argumentPlaces fixed kinds).map ctx.argumentAt) ↔
      ∀ slot, .stack slot ∈ argumentPlaces fixed kinds → ctx.SlotReadable slot := by
  rw [answers_registers fixed short, answers_vaList started few, List.map_inj_left,
    and_iff_left rfl]
  constructor
  · intro same slot reached
    exact registerRead_stack_iff.mp (same _ reached)
  · intro readable place reached
    cases place with
    | general index => rfl
    | vector index => rfl
    | stack slot => exact registerRead_stack_iff.mpr (readable slot reached)

def callOfSevens (inGuestMemory : Bool) : CpuContext where
  rdi := 7
  rsi := 7
  rdx := 7
  rcx := 7
  r8 := 7
  r9 := 7
  rsp := 0x1000
  xmm _ := 7
  tryReadUInt64 _ := if inGuestMemory then some 7 else none
  tryReadHostMemory _ := some 7

theorem vaStarted_callOfSevens (inGuestMemory : Bool) : VaStarted (callOfSevens inGuestMemory) 3
      ⟨callOfSevens inGuestMemory, 24, 48, 0x1008, 0x2000⟩ := by
  have readsSeven : ∀ address,
      (callOfSevens inGuestMemory).tryReadUInt64Compat address = some 7 := by
    intro address
    cases inGuestMemory <;> rfl
  refine ⟨rfl, rfl, rfl, ?_, ?_, ?_, fun _ => rfl⟩
  · change (0x2000 : UInt64) ≠ 0
    decide
  · intro index _ bound
    rw [readsSeven]
    unfold CpuContext.gpRegister
    split <;> rfl
  · intro index _
    rw [readsSeven]
    rfl

theorem sources_yield_arguments_iff_guest :
    answers registerArguments.next (.create (callOfSevens true) 3)
        (List.replicate 4 .integer) = [7, 7, 7, 7] := by
  have both := (sources_yield_arguments_iff (vaStarted_callOfSevens true) (by decide)
    (List.replicate 4 .integer) (by decide)).mpr fun _ _ => .inl rfl
  exact both.1.trans (by decide)

/-- A stack that only the host's memory knows reads as zero through the registers'
source. -/
theorem sources_differ_on_host_stack :
    VaStarted (callOfSevens false) 3 ⟨callOfSevens false, 24, 48, 0x1008, 0x2000⟩ ∧
      answers registerArguments.next (.create (callOfSevens false) 3)
        (List.replicate 4 .integer) = [7, 7, 7, 0] ∧
      answers vaListArguments.next ⟨callOfSevens false, 24, 48, 0x1008, 0x2000⟩
        (List.replicate 4 .integer) = [7, 7, 7, 7] :=
  ⟨vaStarted_callOfSevens false, by decide, by decide⟩

end Printf
end SharpEmu
