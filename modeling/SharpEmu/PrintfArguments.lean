import SharpEmu.AnsweredRequests
import SharpEmu.PrintfFormatting

/-!
# The arguments of printf

The variadic entry points read their arguments from the registers and the stack of
the call, the others from a `va_list`.  Both are meant to follow the System V calling
convention: general and vector registers while there are any, and then the stack.
-/

namespace SharpEmu
namespace Printf

/-! ## The argument sources -/

/-- The registers of a call and the memory around it.  A double is its 64 bits. -/
structure CpuContext where
  rdi : UInt64
  rsi : UInt64
  rdx : UInt64
  rcx : UInt64
  r8 : UInt64
  r9 : UInt64
  rsp : UInt64
  /-- The low halves of the vector registers. -/
  xmm : ℕ → UInt64
  tryReadUInt64 : UInt64 → Option UInt64
  /-- What the host's memory holds at an address that guest memory does not know. -/
  tryReadHostMemory : UInt64 → Option UInt64

/-- Guest memory, with the host's memory as the fallback. -/
def CpuContext.tryReadUInt64Compat (ctx : CpuContext) (address : UInt64) :
    Option UInt64 :=
  match ctx.tryReadUInt64 address with
  | some value => some value
  | none => ctx.tryReadHostMemory address

def CpuContext.readStackArg (ctx : CpuContext) (offset : UInt64) : UInt64 :=
  -- The return address lies between the stack pointer and the arguments.
  (ctx.tryReadUInt64 (ctx.rsp + offset + 8)).getD 0

def CpuContext.gpRegister (ctx : CpuContext) : ℕ → UInt64
  | 0 => ctx.rdi
  | 1 => ctx.rsi
  | 2 => ctx.rdx
  | 3 => ctx.rcx
  | 4 => ctx.r8
  | _ => ctx.r9

structure RegisterPrintfArgumentSource where
  ctx : CpuContext
  gpIndex : ℕ
  fpIndex : ℕ
  stackIndex : Int32

def RegisterPrintfArgumentSource.create (ctx : CpuContext) (gpIndex : ℕ) :
    RegisterPrintfArgumentSource :=
  ⟨ctx, gpIndex, 0, 0⟩

def stackOffset (stackIndex : Int32) : UInt64 :=
  stackIndex.toInt64.toUInt64 * 8

def RegisterPrintfArgumentSource.nextGpArg (source : RegisterPrintfArgumentSource) :
    UInt64 × RegisterPrintfArgumentSource :=
  if source.gpIndex < 6 then
    (source.ctx.gpRegister source.gpIndex, { source with gpIndex := source.gpIndex + 1 })
  else
    (source.ctx.readStackArg (stackOffset source.stackIndex),
      { source with stackIndex := source.stackIndex + 1 })

def RegisterPrintfArgumentSource.nextFloatArg (source : RegisterPrintfArgumentSource) :
    UInt64 × RegisterPrintfArgumentSource :=
  if source.fpIndex < 8 then
    (source.ctx.xmm source.fpIndex, { source with fpIndex := source.fpIndex + 1 })
  else
    (source.ctx.readStackArg (stackOffset source.stackIndex),
      { source with stackIndex := source.stackIndex + 1 })

def registerArguments : ArgumentSource RegisterPrintfArgumentSource UInt64 where
  nextGpArg := RegisterPrintfArgumentSource.nextGpArg
  nextFloatArg := RegisterPrintfArgumentSource.nextFloatArg

def gpSaveAreaLimit : UInt32 := 48

def fpSaveAreaLimit : UInt32 := 176

structure SysVAmd64VaListCursor where
  ctx : CpuContext
  gpOffset : UInt32
  fpOffset : UInt32
  overflowArgArea : UInt64
  regSaveArea : UInt64

def SysVAmd64VaListCursor.nextGpArg (cursor : SysVAmd64VaListCursor) :
    UInt64 × SysVAmd64VaListCursor :=
  if cursor.regSaveArea ≠ 0 ∧ cursor.gpOffset ≤ gpSaveAreaLimit - 8 then
    ((cursor.ctx.tryReadUInt64Compat (cursor.regSaveArea + cursor.gpOffset.toUInt64)).getD 0,
      { cursor with gpOffset := cursor.gpOffset + 8 })
  else
    ((cursor.ctx.tryReadUInt64Compat cursor.overflowArgArea).getD 0,
      { cursor with overflowArgArea := cursor.overflowArgArea + 8 })

def SysVAmd64VaListCursor.nextFloatArg (cursor : SysVAmd64VaListCursor) :
    UInt64 × SysVAmd64VaListCursor :=
  if cursor.regSaveArea ≠ 0 ∧ cursor.fpOffset ≤ fpSaveAreaLimit - 16 then
    ((cursor.ctx.tryReadUInt64Compat (cursor.regSaveArea + cursor.fpOffset.toUInt64)).getD 0,
      { cursor with fpOffset := cursor.fpOffset + 16 })
  else
    ((cursor.ctx.tryReadUInt64Compat cursor.overflowArgArea).getD 0,
      { cursor with overflowArgArea := cursor.overflowArgArea + 8 })

def vaListArguments : ArgumentSource SysVAmd64VaListCursor UInt64 where
  nextGpArg := SysVAmd64VaListCursor.nextGpArg
  nextFloatArg := SysVAmd64VaListCursor.nextFloatArg

/-! ## Sequences of fetches -/

inductive ArgumentKind
  | integer
  | float
deriving DecidableEq, Repr

def ArgumentSource.next {Source : Type} (arguments : ArgumentSource Source UInt64)
    (source : Source) : ArgumentKind → UInt64 × Source
  | .integer => arguments.nextGpArg source
  | .float => arguments.nextFloatArg source

/-! ## The calling convention -/

/-- Where an argument is passed: in a general register, in a vector register or in a
slot of the stack. -/
inductive ArgumentPlace
  | general (index : ℕ)
  | vector (index : ℕ)
  | stack (slot : ℕ)
deriving DecidableEq, Repr

/-- How many places of each sort the earlier arguments have taken. -/
structure ArgumentPosition where
  general : ℕ
  vector : ℕ
  stack : ℕ
deriving DecidableEq, Repr

/-- The place of the next argument: six general and eight vector registers, and one
stack area for what does not fit. -/
def ArgumentPosition.next (position : ArgumentPosition) :
    ArgumentKind → ArgumentPlace × ArgumentPosition
  | .integer =>
      if position.general < 6 then
        (.general position.general, { position with general := position.general + 1 })
      else (.stack position.stack, { position with stack := position.stack + 1 })
  | .float =>
      if position.vector < 8 then
        (.vector position.vector, { position with vector := position.vector + 1 })
      else (.stack position.stack, { position with stack := position.stack + 1 })

def argumentPlaces (fixed : ℕ) (kinds : List ArgumentKind) : List ArgumentPlace :=
  answers ArgumentPosition.next ⟨fixed, 0, 0⟩ kinds

def CpuContext.stackSlot (ctx : CpuContext) (slot : ℕ) : UInt64 :=
  ctx.rsp + 8 + .ofNat (8 * slot)

def CpuContext.argumentAt (ctx : CpuContext) : ArgumentPlace → UInt64
  | .general index => ctx.gpRegister index
  | .vector index => ctx.xmm index
  | .stack slot => (ctx.tryReadUInt64Compat (ctx.stackSlot slot)).getD 0

/-- A `va_list` as `va_start` leaves it in a function with some fixed arguments: the
registers of the call are in the save area, and the overflow area is the stack area
of the call, in which nothing has changed. -/
structure VaStarted (ctx : CpuContext) (fixed : ℕ) (cursor : SysVAmd64VaListCursor) :
    Prop where
  gpOffset : cursor.gpOffset.toNat = 8 * fixed
  fpOffset : cursor.fpOffset = 48
  overflowArgArea : cursor.overflowArgArea = ctx.rsp + 8
  regSaveArea : cursor.regSaveArea ≠ 0
  generalSaved : ∀ index, fixed ≤ index → index < 6 →
    cursor.ctx.tryReadUInt64Compat (cursor.regSaveArea + .ofNat (8 * index)) =
      some (ctx.gpRegister index)
  vectorSaved : ∀ index < 8,
    cursor.ctx.tryReadUInt64Compat (cursor.regSaveArea + .ofNat (48 + 16 * index)) =
      some (ctx.xmm index)
  stackKept : ∀ slot,
    cursor.ctx.tryReadUInt64Compat (ctx.stackSlot slot) =
      ctx.tryReadUInt64Compat (ctx.stackSlot slot)

end Printf
end SharpEmu
