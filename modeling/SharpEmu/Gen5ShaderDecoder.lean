import SharpEmu.FaultingPrograms

/-!
# Decoding shader programs

A shader is decoded word by word from guest memory, each encoding with its own
table of opcodes and its own rule for literal words, until the first `s_endpgm`.
-/

namespace SharpEmu
namespace Gen5Shader

/-! ## Instructions -/

inductive Gen5ShaderEncoding
  | sop1 | sop2 | sopc | sopp | sopk | smrd | smem | mubuf | mtbuf | vop1 | vop2
  | vopc | vop3 | vintrp | ds | flat | vop3p | mimg | exp
deriving DecidableEq, Repr

structure Gen5ShaderInstruction where
  pc : UInt32
  encoding : Gen5ShaderEncoding
  opcode : String
  words : List UInt32
deriving DecidableEq, Repr

inductive DecodeError
  | missing
  | readFailed (pc : UInt32)
  | extraReadFailed (encoding : Gen5ShaderEncoding) (pc : UInt32)
  | unknownTop (pc word : UInt32)
  | unknown (encoding : Gen5ShaderEncoding) (opcode word : UInt32)
  | unterminated
deriving DecidableEq, Repr

/-- `CpuContext.TryReadUInt32`. -/
abbrev GuestWords := UInt64 → Option UInt32

/-- What the first word says: the encoding, the name and the length in words. -/
structure Decoded where
  encoding : Gen5ShaderEncoding
  name : String
  sizeDwords : UInt32
deriving DecidableEq, Repr

/-! ## Opcode tables -/

def sop1Names : List (UInt32 × String) := [
  (0x03, "SMovB32"), (0x04, "SMovB64"), (0x07, "SNotB32"), (0x08, "SNotB64"),
  (0x0A, "SWqmB64"), (0x0B, "SBrevB32"), (0x0F, "SBcnt1I32B32"), (0x13, "SFF1I32B32"),
  (0x1D, "SBitset1B32"), (0x1F, "SGetpcB64"), (0x20, "SSetpcB64"),
  (0x21, "SSwappcB64"), (0x24, "SAndSaveexecB64"), (0x25, "SOrSaveexecB64"),
  (0x26, "SXorSaveexecB64"), (0x27, "SAndn2SaveexecB64"), (0x28, "SOrn2SaveexecB64"),
  (0x29, "SNandSaveexecB64"), (0x2A, "SNorSaveexecB64"), (0x2B, "SXnorSaveexecB64"),
  (0x37, "SAndn1SaveexecB64"), (0x38, "SOrn1SaveexecB64"), (0x3C, "SAndSaveexecB32"),
  (0x3D, "SOrSaveexecB32"), (0x3E, "SXorSaveexecB32"), (0x3F, "SAndn2SaveexecB32"),
  (0x40, "SOrn2SaveexecB32"), (0x41, "SNandSaveexecB32"), (0x42, "SNorSaveexecB32"),
  (0x43, "SXnorSaveexecB32"), (0x44, "SAndn1SaveexecB32"), (0x45, "SOrn1SaveexecB32")]

def sop2Names : List (UInt32 × String) := [
  (0x00, "SAddU32"), (0x01, "SSubU32"), (0x02, "SAddI32"), (0x03, "SSubI32"),
  (0x04, "SAddcU32"), (0x05, "SSubbU32"), (0x06, "SMinI32"), (0x07, "SMinU32"),
  (0x08, "SMaxI32"), (0x09, "SMaxU32"), (0x0A, "SCselectB32"), (0x0B, "SCselectB64"),
  (0x0E, "SAndB32"), (0x0F, "SAndB64"), (0x10, "SOrB32"), (0x11, "SOrB64"),
  (0x12, "SXorB32"), (0x13, "SXorB64"), (0x14, "SAndn2B32"), (0x15, "SAndn2B64"),
  (0x16, "SOrn2B32"), (0x17, "SOrn2B64"), (0x18, "SNandB32"), (0x19, "SNandB64"),
  (0x1A, "SNorB32"), (0x1B, "SNorB64"), (0x1C, "SXnorB32"), (0x1D, "SXnorB64"),
  (0x1E, "SLshlB32"), (0x1F, "SLshlB64"), (0x20, "SLshrB32"), (0x21, "SLshrB64"),
  (0x22, "SAshrI32"), (0x23, "SAshrI64"), (0x24, "SBfmB32"), (0x25, "SBfmB64"),
  (0x26, "SMulI32"), (0x27, "SBfeU32"), (0x28, "SBfeI32"), (0x29, "SBfeU64"),
  (0x2A, "SBfeI64"), (0x2D, "SAbsdiffI32"), (0x2E, "SLshl1AddU32"),
  (0x2F, "SLshl2AddU32"), (0x30, "SLshl3AddU32"), (0x31, "SLshl4AddU32"),
  (0x32, "SPackLlB32B16"), (0x33, "SPackLhB32B16"), (0x34, "SPackHhB32B16"),
  (0x35, "SMulHiU32"), (0x36, "SMulHiI32")]

def sopcNames : List (UInt32 × String) := [
  (0x00, "SCmpEqI32"), (0x01, "SCmpLgI32"), (0x02, "SCmpGtI32"), (0x03, "SCmpGeI32"),
  (0x04, "SCmpLtI32"), (0x05, "SCmpLeI32"), (0x06, "SCmpEqU32"), (0x07, "SCmpLgU32"),
  (0x08, "SCmpGtU32"), (0x09, "SCmpGeU32"), (0x0A, "SCmpLtU32"), (0x0B, "SCmpLeU32"),
  (0x0C, "SBitcmp0B32"), (0x0D, "SBitcmp1B32"), (0x0E, "SBitcmp0B64"),
  (0x0F, "SBitcmp1B64")]

def soppNames : List (UInt32 × String) := [
  (0x00, "SNop"), (0x01, "SEndpgm"), (0x02, "SBranch"), (0x04, "SCbranchScc0"),
  (0x05, "SCbranchScc1"), (0x06, "SCbranchVccz"), (0x07, "SCbranchVccnz"),
  (0x08, "SCbranchExecz"), (0x09, "SCbranchExecnz"), (0x0A, "SBarrier"),
  (0x0C, "SWaitcnt"), (0x10, "SSendmsg"), (0x16, "STtraceData"),
  (0x20, "SInstPrefetch"), (0x21, "SClause"), (0x23, "SWaitcntDepctr")]

def sopkNames : List (UInt32 × String) := [
  (0x00, "SMovkI32"), (0x03, "SCmpkEqI32"), (0x04, "SCmpkLgI32"), (0x05, "SCmpkGtI32"),
  (0x06, "SCmpkGeI32"), (0x07, "SCmpkLtI32"), (0x08, "SCmpkLeI32"),
  (0x09, "SCmpkEqU32"), (0x0A, "SCmpkLgU32"), (0x0B, "SCmpkGtU32"),
  (0x0C, "SCmpkGeU32"), (0x0D, "SCmpkLtU32"), (0x0E, "SCmpkLeU32"), (0x0F, "SAddkI32"),
  (0x10, "SMulkI32")]

def vop1Names : List (UInt32 × String) := [
  (0x00, "VNop"), (0x01, "VMovB32"), (0x02, "VReadfirstlaneB32"), (0x05, "VCvtF32I32"),
  (0x06, "VCvtF32U32"), (0x07, "VCvtU32F32"), (0x08, "VCvtI32F32"),
  (0x0A, "VCvtF16F32"), (0x0B, "VCvtF32F16"), (0x0C, "VCvtRpiI32F32"),
  (0x0D, "VCvtFlrI32F32"), (0x0E, "VCvtOffF32I4"), (0x11, "VCvtF32Ubyte0"),
  (0x12, "VCvtF32Ubyte1"), (0x13, "VCvtF32Ubyte2"), (0x14, "VCvtF32Ubyte3"),
  (0x20, "VFractF32"), (0x21, "VTruncF32"), (0x22, "VCeilF32"), (0x23, "VRndneF32"),
  (0x24, "VFloorF32"), (0x25, "VExpF32"), (0x27, "VLogF32"), (0x2A, "VRcpF32"),
  (0x2B, "VRcpIflagF32"), (0x2E, "VRsqF32"), (0x33, "VSqrtF32"), (0x35, "VSinF32"),
  (0x36, "VCosF32"), (0x37, "VNotB32"), (0x38, "VBfrevB32"), (0x3A, "VFfblB32"),
  (0x42, "VMovreldB32"), (0x43, "VMovrelsB32"), (0x44, "VMovrelsdB32")]

def vop2Names : List (UInt32 × String) := [
  (0x01, "VCndmaskB32"), (0x02, "VDot2cF32F16"), (0x03, "VAddF32"), (0x04, "VSubF32"),
  (0x05, "VSubrevF32"), (0x08, "VMulF32"), (0x0B, "VMulU32U24"),
  (0x0C, "VMulHiU32U24"), (0x0F, "VMinF32"), (0x10, "VMaxF32"), (0x11, "VMinI32"),
  (0x12, "VMaxI32"), (0x13, "VMinU32"), (0x14, "VMaxU32"), (0x15, "VLshrB32"),
  (0x16, "VLshrrevB32"), (0x17, "VAshrI32"), (0x18, "VAshrrevI32"), (0x19, "VLshlB32"),
  (0x1A, "VLshlrevB32"), (0x1B, "VAndB32"), (0x1C, "VOrB32"), (0x1D, "VXorB32"),
  (0x1E, "VXnorB32"), (0x1F, "VMacF32"), (0x20, "VMadMkF32"), (0x21, "VMadAkF32"),
  (0x22, "VBcntU32B32"), (0x23, "VMbcntLoU32B32"), (0x24, "VMbcntHiU32B32"),
  (0x25, "VAddI32"), (0x26, "VSubI32"), (0x27, "VSubrevI32"), (0x28, "VAddcU32"),
  (0x29, "VSubbU32"), (0x2A, "VSubbrevU32"), (0x2B, "VFmacF32"), (0x2C, "VFmaMkF32"),
  (0x2D, "VFmaAkF32"), (0x2F, "VCvtPkrtzF16F32"), (0x30, "VCvtPkU16U32"),
  (0x31, "VCvtPkI16I32")]

def vopcNames : List (UInt32 × String) := [
  (0x00, "VCmpFF32"), (0x01, "VCmpLtF32"), (0x02, "VCmpEqF32"), (0x03, "VCmpLeF32"),
  (0x04, "VCmpGtF32"), (0x05, "VCmpLgF32"), (0x06, "VCmpGeF32"), (0x07, "VCmpOF32"),
  (0x08, "VCmpUF32"), (0x09, "VCmpNgeF32"), (0x0A, "VCmpNlgF32"), (0x0B, "VCmpNgtF32"),
  (0x0C, "VCmpNleF32"), (0x0D, "VCmpNeqF32"), (0x0E, "VCmpNltF32"),
  (0x0F, "VCmpTruF32"), (0x10, "VCmpxFF32"), (0x11, "VCmpxLtF32"),
  (0x12, "VCmpxEqF32"), (0x13, "VCmpxLeF32"), (0x14, "VCmpxGtF32"),
  (0x15, "VCmpxLgF32"), (0x16, "VCmpxGeF32"), (0x17, "VCmpxOF32"), (0x18, "VCmpxUF32"),
  (0x19, "VCmpxNgeF32"), (0x1A, "VCmpxNlgF32"), (0x1B, "VCmpxNgtF32"),
  (0x1C, "VCmpxNleF32"), (0x1D, "VCmpxNeqF32"), (0x1E, "VCmpxNltF32"),
  (0x1F, "VCmpxTruF32"), (0x80, "VCmpFI32"), (0x81, "VCmpLtI32"), (0x82, "VCmpEqI32"),
  (0x83, "VCmpLeI32"), (0x84, "VCmpGtI32"), (0x85, "VCmpNeI32"), (0x86, "VCmpGeI32"),
  (0x87, "VCmpTI32"), (0x88, "VCmpClassF32"), (0x90, "VCmpxFI32"),
  (0x91, "VCmpxLtI32"), (0x92, "VCmpxEqI32"), (0x93, "VCmpxLeI32"),
  (0x94, "VCmpxGtI32"), (0x95, "VCmpxNeI32"), (0x96, "VCmpxGeI32"),
  (0x97, "VCmpxTI32"), (0xC0, "VCmpFU32"), (0xC1, "VCmpLtU32"), (0xC2, "VCmpEqU32"),
  (0xC3, "VCmpLeU32"), (0xC4, "VCmpGtU32"), (0xC5, "VCmpNeU32"), (0xC6, "VCmpGeU32"),
  (0xC7, "VCmpTU32"), (0xD0, "VCmpxFU32"), (0xD1, "VCmpxLtU32"), (0xD2, "VCmpxEqU32"),
  (0xD3, "VCmpxLeU32"), (0xD4, "VCmpxGtU32"), (0xD5, "VCmpxNeU32"),
  (0xD6, "VCmpxGeU32"), (0xD7, "VCmpxTU32")]

def vop3bNames : List (UInt32 × String) := [
  (0x128, "VAddCoCiU32"), (0x30F, "VAddCoU32"), (0x310, "VSubCoU32"),
  (0x319, "VSubrevCoU32"), (0x176, "VMadU64U32")]

def vop3Names : List (UInt32 × String) := [
  (0x101, "VCndmaskB32"), (0x103, "VAddF32"), (0x104, "VSubF32"), (0x108, "VMulF32"),
  (0x10F, "VMinF32"), (0x110, "VMaxF32"), (0x11F, "VMacF32"), (0x12B, "VFmacF32"),
  (0x12F, "VCvtPkrtzF16F32"), (0x141, "VMadF32"), (0x143, "VMadU32U24"),
  (0x144, "VCubeidF32"), (0x145, "VCubescF32"), (0x146, "VCubetcF32"),
  (0x147, "VCubemaF32"), (0x14A, "VBfiB32"), (0x14B, "VFmaF32"), (0x151, "VMin3F32"),
  (0x152, "VMin3I32"), (0x153, "VMin3U32"), (0x154, "VMax3F32"), (0x155, "VMax3I32"),
  (0x156, "VMax3U32"), (0x157, "VMed3F32"), (0x158, "VMed3I32"), (0x159, "VMed3U32"),
  (0x15A, "VSadU8"), (0x15B, "VSadHiU8"), (0x15C, "VSadU16"), (0x15D, "VSadU32"),
  (0x15E, "VCvtPkU8F32"), (0x148, "VBfeU32"), (0x169, "VMulLoU32"),
  (0x16A, "VMulHiU32"), (0x16B, "VMulLoI32"), (0x16C, "VMulHiI32"),
  (0x360, "VReadlaneB32"), (0x361, "VWritelaneB32"), (0x362, "VLdexpF32"),
  (0x363, "VBfmB32"), (0x364, "VBcntU32B32"), (0x365, "VMbcntLoU32B32"),
  (0x366, "VMbcntHiU32B32"), (0x368, "VCvtPknormI16F32"), (0x369, "VCvtPknormU16F32"),
  (0x373, "VMadU32U16"), (0x346, "VLshlAddU32"), (0x347, "VAddLshlU32"),
  (0x36D, "VAdd3U32"), (0x36F, "VLshlOrU32"), (0x371, "VAndOrB32"), (0x372, "VOr3U32"),
  (0x377, "VPermlane16B32"), (0x378, "VPermlanex16B32")]

def vop3pNames : List (UInt32 × String) := [
  (0x0E, "VPkFmaF16"), (0x0F, "VPkAddF16"), (0x10, "VPkMulF16"), (0x11, "VPkMinF16"),
  (0x12, "VPkMaxF16")]

def dsNames : List (UInt32 × String) := [
  (0x00, "DsAddU32"), (0x01, "DsSubU32"), (0x03, "DsIncU32"), (0x04, "DsDecU32"),
  (0x05, "DsMinI32"), (0x06, "DsMaxI32"), (0x07, "DsMinU32"), (0x08, "DsMaxU32"),
  (0x09, "DsAndB32"), (0x0A, "DsOrB32"), (0x0B, "DsXorB32"), (0x0D, "DsWriteB32"),
  (0x0E, "DsWrite2B32"), (0x0F, "DsWrite2St64B32"), (0x10, "DsCmpstB32"),
  (0x20, "DsAddRtnU32"), (0x21, "DsSubRtnU32"), (0x23, "DsIncRtnU32"),
  (0x24, "DsDecRtnU32"), (0x25, "DsMinRtnI32"), (0x26, "DsMaxRtnI32"),
  (0x27, "DsMinRtnU32"), (0x28, "DsMaxRtnU32"), (0x29, "DsAndRtnB32"),
  (0x2A, "DsOrRtnB32"), (0x2B, "DsXorRtnB32"), (0x2D, "DsWrxchgRtnB32"),
  (0x30, "DsCmpstRtnB32"), (0x35, "DsSwizzleB32"), (0x36, "DsReadB32"),
  (0x37, "DsRead2B32"), (0x38, "DsRead2St64B32"), (0x4D, "DsWriteB64"),
  (0xDE, "DsWriteB96"), (0xDF, "DsWriteB128"), (0xFE, "DsReadB96"),
  (0xFF, "DsReadB128")]

def mtbufNames : List (UInt32 × String) := [
  (0x00, "TBufferLoadFormatX"), (0x01, "TBufferLoadFormatXy"),
  (0x02, "TBufferLoadFormatXyz"), (0x03, "TBufferLoadFormatXyzw"),
  (0x04, "TBufferStoreFormatX"), (0x05, "TBufferStoreFormatXy"),
  (0x06, "TBufferStoreFormatXyz"), (0x07, "TBufferStoreFormatXyzw")]

def mubufNames : List (UInt32 × String) := [
  (0x00, "BufferLoadFormatX"), (0x01, "BufferLoadFormatXy"),
  (0x02, "BufferLoadFormatXyz"), (0x03, "BufferLoadFormatXyzw"),
  (0x04, "BufferStoreFormatX"), (0x05, "BufferStoreFormatXy"),
  (0x06, "BufferStoreFormatXyz"), (0x07, "BufferStoreFormatXyzw"),
  (0x08, "BufferLoadUbyte"), (0x09, "BufferLoadSbyte"), (0x0A, "BufferLoadUshort"),
  (0x0B, "BufferLoadSshort"), (0x0C, "BufferLoadDword"), (0x0D, "BufferLoadDwordx2"),
  (0x0E, "BufferLoadDwordx4"), (0x0F, "BufferLoadDwordx3"), (0x18, "BufferStoreByte"),
  (0x19, "BufferStoreByteD16Hi"), (0x1A, "BufferStoreShort"),
  (0x1B, "BufferStoreShortD16Hi"), (0x1C, "BufferStoreDword"),
  (0x1D, "BufferStoreDwordx2"), (0x1E, "BufferStoreDwordx4"),
  (0x1F, "BufferStoreDwordx3"), (0x20, "BufferLoadUbyteD16"),
  (0x21, "BufferLoadUbyteD16Hi"), (0x22, "BufferLoadSbyteD16"),
  (0x23, "BufferLoadSbyteD16Hi"), (0x24, "BufferLoadShortD16"),
  (0x25, "BufferLoadShortD16Hi"), (0x30, "BufferAtomicSwap"),
  (0x31, "BufferAtomicCmpswap"), (0x32, "BufferAtomicAdd"), (0x33, "BufferAtomicSub"),
  (0x35, "BufferAtomicSmin"), (0x36, "BufferAtomicUmin"), (0x37, "BufferAtomicSmax"),
  (0x38, "BufferAtomicUmax"), (0x39, "BufferAtomicAnd"), (0x3A, "BufferAtomicOr"),
  (0x3B, "BufferAtomicXor"), (0x3C, "BufferAtomicInc"), (0x3D, "BufferAtomicDec")]

def flatNames : List (UInt32 × String) := [
  (0x08, "GlobalLoadUbyte"), (0x09, "GlobalLoadSbyte"), (0x0A, "GlobalLoadUshort"),
  (0x0B, "GlobalLoadSshort"), (0x0C, "GlobalLoadDword"), (0x0D, "GlobalLoadDwordx2"),
  (0x0E, "GlobalLoadDwordx4"), (0x0F, "GlobalLoadDwordx3"), (0x18, "GlobalStoreByte"),
  (0x19, "GlobalStoreByteD16Hi"), (0x1A, "GlobalStoreShort"),
  (0x1B, "GlobalStoreShortD16Hi"), (0x1C, "GlobalStoreDword"),
  (0x1D, "GlobalStoreDwordx2"), (0x1E, "GlobalStoreDwordx4"),
  (0x1F, "GlobalStoreDwordx3"), (0x20, "GlobalLoadUbyteD16"),
  (0x21, "GlobalLoadUbyteD16Hi"), (0x22, "GlobalLoadSbyteD16"),
  (0x23, "GlobalLoadSbyteD16Hi"), (0x24, "GlobalLoadShortD16"),
  (0x25, "GlobalLoadShortD16Hi"), (0x32, "GlobalAtomicAdd"),
  (0x38, "GlobalAtomicUMax")]

def smrdNames : List (UInt32 × String) := [
  (0x00, "SLoadDword"), (0x01, "SLoadDwordx2"), (0x02, "SLoadDwordx4"),
  (0x03, "SLoadDwordx8"), (0x04, "SLoadDwordx16"), (0x08, "SBufferLoadDword"),
  (0x09, "SBufferLoadDwordx2"), (0x0A, "SBufferLoadDwordx4"),
  (0x0B, "SBufferLoadDwordx8"), (0x0C, "SBufferLoadDwordx16")]

def smemNames : List (UInt32 × String) := smrdNames

def mimgNames : List (UInt32 × String) := [
  (0x00, "ImageLoad"), (0x01, "ImageLoadMip"), (0x08, "ImageStore"),
  (0x09, "ImageStoreMip"), (0x0E, "ImageGetResinfo"), (0x0F, "ImageAtomicSwap"),
  (0x10, "ImageAtomicCmpswap"), (0x11, "ImageAtomicAdd"), (0x12, "ImageAtomicSub"),
  (0x14, "ImageAtomicSmin"), (0x15, "ImageAtomicUmin"), (0x16, "ImageAtomicSmax"),
  (0x17, "ImageAtomicUmax"), (0x18, "ImageAtomicAnd"), (0x19, "ImageAtomicOr"),
  (0x1A, "ImageAtomicXor"), (0x1B, "ImageAtomicInc"), (0x1C, "ImageAtomicDec"),
  (0x20, "ImageSample"), (0x22, "ImageSampleD"), (0x24, "ImageSampleL"),
  (0x25, "ImageSampleB"), (0x27, "ImageSampleLz"), (0x2F, "ImageSampleCLz"),
  (0x30, "ImageSampleO"), (0x34, "ImageSampleLO"), (0x37, "ImageSampleLzO"),
  (0x40, "ImageGather4"), (0x47, "ImageGather4Lz"), (0x48, "ImageGather4C"),
  (0x4E, "ImageGather4CBCl"), (0x57, "ImageGather4LzO"), (0x5F, "ImageGather4CLzO")]

def vintrpNames : List (UInt32 × String) := [
  (0x00, "VInterpP1F32"), (0x01, "VInterpP2F32"), (0x02, "VInterpMovF32")]

/-! ## Encodings -/

def upperHex (width : ℕ) (value : UInt32) : String :=
  let digits := (Nat.toDigits 16 value.toNat).map Char.toUpper
  String.ofList (List.replicate (width - digits.length) '0' ++ digits)

def nameOf (names : List (UInt32 × String)) (opcode : UInt32) : String :=
  (names.lookup opcode).getD ""

def finishDecode (encoding : Gen5ShaderEncoding) (name : String)
    (sizeDwords opcode word : UInt32) : Except DecodeError Decoded :=
  if name = "" then .error (.unknown encoding opcode word)
  else .ok ⟨encoding, name, sizeDwords⟩

/-- A vector source that takes a second word: SDWA, DPP, DPP8 or a literal. -/
def takesExtraWord (src0 : UInt32) : Bool :=
  src0 == 0xE9 || src0 == 0xEA || src0 == 0xF9 || src0 == 0xFA || src0 == 0xFF

def decodeSop1 (word : UInt32) : Except DecodeError Decoded :=
  let opcode := (word >>> 8) &&& 0xFF
  let src0 := word &&& 0xFF
  finishDecode .sop1 (nameOf sop1Names opcode) (1 + (if src0 = 0xFF then 1 else 0)) opcode word

def decodeSop2 (word : UInt32) : Except DecodeError Decoded :=
  let opcode := (word >>> 23) &&& 0x7F
  let src0 := word &&& 0xFF
  let src1 := (word >>> 8) &&& 0xFF
  finishDecode .sop2 (nameOf sop2Names opcode)
    (if src0 = 0xFF ∨ src1 = 0xFF then 2 else 1) opcode word

def decodeSopc (word : UInt32) : Except DecodeError Decoded :=
  let opcode := (word >>> 16) &&& 0x7F
  let src0 := word &&& 0xFF
  let src1 := (word >>> 8) &&& 0xFF
  finishDecode .sopc (nameOf sopcNames opcode)
    (if src0 = 0xFF ∨ src1 = 0xFF then 2 else 1) opcode word

def decodeSopp (word : UInt32) : Except DecodeError Decoded :=
  let opcode := (word >>> 16) &&& 0x7F
  finishDecode .sopp (nameOf soppNames opcode) 1 opcode word

def decodeSopk (word : UInt32) : Except DecodeError Decoded :=
  let opcode := ((word >>> 23) &&& 0x7F) - 0x60
  finishDecode .sopk (nameOf sopkNames opcode) 1 opcode word

/-- The encoding follows the seven opcode bits. -/
def decodeSop (word : UInt32) : Except DecodeError Decoded :=
  let opcode := (word >>> 23) &&& 0x7F
  if opcode = 0x7D then decodeSop1 word
  else if opcode = 0x7E then decodeSopc word
  else if opcode = 0x7F then decodeSopp word
  else if opcode ≥ 0x60 then decodeSopk word
  else decodeSop2 word

def decodeVop1 (word : UInt32) : Except DecodeError Decoded :=
  let opcode := (word >>> 9) &&& 0xFF
  finishDecode .vop1 (nameOf vop1Names opcode)
    (if takesExtraWord (word &&& 0x1FF) then 2 else 1) opcode word

def decodeVopc (word : UInt32) : Except DecodeError Decoded :=
  let opcode := (word >>> 17) &&& 0xFF
  finishDecode .vopc (nameOf vopcNames opcode)
    (if takesExtraWord (word &&& 0x1FF) then 2 else 1) opcode word

def decodeVop2 (word : UInt32) : Except DecodeError Decoded :=
  let opcode := (word >>> 25) &&& 0x3F
  if opcode = 0x3E then decodeVopc word
  else if opcode = 0x3F then decodeVop1 word
  else
    finishDecode .vop2 (nameOf vop2Names opcode)
      (if opcode = 0x20 ∨ opcode = 0x21 ∨ opcode = 0x2C ∨ opcode = 0x2D ∨
        takesExtraWord (word &&& 0x1FF) then 2 else 1) opcode word

/-- Two words, and a third when a source in the second is a literal. -/
def vop3Size (extra : UInt32) : UInt32 :=
  if extra &&& 0x1FF = 0xFF ∨ (extra >>> 9) &&& 0x1FF = 0xFF ∨
    (extra >>> 18) &&& 0x1FF = 0xFF then 3 else 2

def isVop3BOpcode (opcode : UInt32) : Bool :=
  opcode == 0x128 || opcode == 0x16D || opcode == 0x16E || opcode == 0x176 ||
    opcode == 0x177 || opcode == 0x30F || opcode == 0x310 || opcode == 0x319

def decodeVop3 (word extra : UInt32) : Decoded :=
  let opcode := (word >>> 16) &&& 0x3FF
  let name :=
    if isVop3BOpcode opcode then
      (vop3bNames.lookup opcode).getD ("Vop3bRaw" ++ upperHex 3 opcode)
    else (vop3Names.lookup opcode).getD ("Vop3Raw" ++ upperHex 3 opcode)
  ⟨.vop3, name, vop3Size extra⟩

def decodeVop3p (word extra : UInt32) : Decoded :=
  let opcode := (word >>> 16) &&& 0x7F
  ⟨.vop3p, (vop3pNames.lookup opcode).getD ("Vop3pRaw" ++ upperHex 2 opcode), vop3Size extra⟩

def decodeRaw2 (encoding : Gen5ShaderEncoding) (word : UInt32) (rawName : String) : Decoded :=
  ⟨encoding, rawName ++ "Raw" ++ upperHex 2 (word >>> 24), 2⟩

def decodeDs (word : UInt32) : Except DecodeError Decoded :=
  let opcode := (word >>> 18) &&& 0xFF
  finishDecode .ds (nameOf dsNames opcode) 2 opcode word

/-- Two words, and a third when the scalar offset is a literal. -/
def bufferSize (extra : UInt32) : UInt32 :=
  if extra >>> 24 = 0xFF then 3 else 2

def decodeMtbuf (word extra : UInt32) : Decoded :=
  ⟨.mtbuf, nameOf mtbufNames ((word >>> 16) &&& 0x7), bufferSize extra⟩

def decodeMubuf (word extra : UInt32) : Decoded :=
  let opcode := (word >>> 18) &&& 0x7F
  ⟨.mubuf, (mubufNames.lookup opcode).getD ("MubufRaw" ++ upperHex 2 opcode), bufferSize extra⟩

def decodeFlat (word : UInt32) : Except DecodeError Decoded :=
  let segment := (word >>> 14) &&& 0x3
  let opcode := (word >>> 18) &&& 0x7F
  finishDecode .flat (if segment = 0x2 then nameOf flatNames opcode else "") 2 opcode word

def decodeSmrd (word : UInt32) : Except DecodeError Decoded :=
  let opcode := (word >>> 22) &&& 0x1F
  let offset := word &&& 0xFF
  let immediateOffset := (word >>> 8) &&& 1 ≠ 0
  finishDecode .smrd (nameOf smrdNames opcode)
    (if ¬ immediateOffset ∧ offset = 0xFF then 2 else 1) opcode word

def decodeSmem (word : UInt32) : Except DecodeError Decoded :=
  let opcode := (word >>> 18) &&& 0xFF
  finishDecode .smem (nameOf smemNames opcode) 2 opcode word

def decodeMimg (word : UInt32) : Except DecodeError Decoded :=
  let opcode := (word >>> 18) &&& 0x7F
  finishDecode .mimg (nameOf mimgNames opcode) ((2 : UInt32) + ((word >>> 1) &&& 0x3)) opcode word

def decodeVintrp (word : UInt32) : Except DecodeError Decoded :=
  let opcode := (word >>> 16) &&& 0x3
  finishDecode .vintrp (nameOf vintrpNames opcode) 1 opcode word

/-- The encodings whose length depends on their second word. -/
def withExtraWord (words : GuestWords) (baseAddress : UInt64) (pc : UInt32)
    (encoding : Gen5ShaderEncoding) (decode : UInt32 → Decoded) :
    Except DecodeError Decoded :=
  match words (baseAddress + pc.toUInt64 + 4) with
  | none => .error (.extraReadFailed encoding pc)
  | some extra => .ok (decode extra)

def tryDecodeInstruction (words : GuestWords) (baseAddress : UInt64)
    (pc word : UInt32) : Except DecodeError Decoded :=
  if word &&& 0x80000000 = 0 then decodeVop2 word
  else if word &&& 0xF8000000 = 0xC0000000 then decodeSmrd word
  else if word &&& 0xC0000000 = 0x80000000 then decodeSop word
  else if word &&& 0xFF800000 = 0xCC000000 then
    withExtraWord words baseAddress pc .vop3p (decodeVop3p word)
  else
    let top := word >>> 26
    if top = 0x33 then decodeSmem word
    else if top = 0x32 then decodeVintrp word
    else if top = 0x34 ∨ top = 0x35 then
      withExtraWord words baseAddress pc .vop3 (decodeVop3 word)
    else if top = 0x36 then decodeDs word
    else if top = 0x37 then decodeFlat word
    else if top = 0x38 then
      withExtraWord words baseAddress pc .mubuf (decodeMubuf word)
    else if top = 0x3A then
      withExtraWord words baseAddress pc .mtbuf (decodeMtbuf word)
    else if top = 0x3C then decodeMimg word
    else if top = 0x3D then decodeSmem word
    else if top = 0x3E then .ok ⟨.exp, "Exp", 2⟩
    else if top = 0x3F then .ok (decodeRaw2 .vop3p word "Vop3p")
    else .error (.unknownTop pc word)

/-! ## Programs -/

def readWords (words : GuestWords) (address : UInt64) (pc : UInt32) (first : ℕ) :
    ℕ → Except DecodeError (List UInt32)
  | 0 => .ok []
  | count + 1 => do
      let here := pc + .ofNat (4 * first)
      match words (address + pc.toUInt64 + .ofNat (4 * first)) with
      | none => throw (.readFailed here)
      | some word => return word :: (← readWords words address pc (first + 1) count)

/-- One turn of the decoding loop. -/
def decodeAt (words : GuestWords) (address : UInt64) (pc : UInt32) :
    Except DecodeError Gen5ShaderInstruction := do
  match words (address + pc.toUInt64) with
  | none => throw (.readFailed pc)
  | some word =>
      let decoded ← tryDecodeInstruction words address pc word
      let rest ← readWords words address pc 1 (decoded.sizeDwords.toNat - 1)
      return ⟨pc, decoded.encoding, decoded.name, word :: rest⟩

def maxInstructions : ℕ := 4096

def Gen5ShaderInstruction.endPc (instruction : Gen5ShaderInstruction) : UInt32 :=
  instruction.pc + .ofNat (4 * instruction.words.length)

/-- The decoding loop with the turns it has left. -/
def decodeFrom (words : GuestWords) (address : UInt64) :
    ℕ → UInt32 → Except DecodeError (List Gen5ShaderInstruction)
  | 0, _ => .error .unterminated
  | turns + 1, pc => do
      let instruction ← decodeAt words address pc
      if instruction.opcode = "SEndpgm" then return [instruction]
      else return instruction :: (← decodeFrom words address turns instruction.endPc)

def tryDecodeProgram (words : GuestWords) (address : UInt64) :
    Except DecodeError (List Gen5ShaderInstruction) :=
  if address = 0 then .error .missing
  else decodeFrom words address maxInstructions 0

end Gen5Shader
end SharpEmu
