import SharpEmu.StoredRanges

/-!
# Presents by copy

A present without a renderer copies the pixels of a texture to a display buffer in
guest memory, scaled and converted.  It remembers a fingerprint of the pixels for each
pair of addresses and leaves out a copy whose fingerprint it remembers.
-/

namespace SharpEmu.SoftwarePresenter

open Addressed

/-! ## Textures and display buffers -/

inductive VideoOutPixelFormat where
  | a8r8g8b8Srgb | a8b8g8r8Srgb | r8g8b8a8Srgb | b8g8r8a8Srgb
  | r10g10b10a2 | b10g10r10a2 | r10g10b10a2Srgb | b10g10r10a2Srgb
  | r10g10b10a2Bt2100Pq | b10g10r10a2Bt2100Pq
  | other (code : ℕ)
deriving DecidableEq

namespace VideoOutPixelFormat

def isPresented : VideoOutPixelFormat → Bool
  | other _ => false
  | _ => true

def isPacked10Bit : VideoOutPixelFormat → Bool
  | r10g10b10a2 | b10g10r10a2 | r10g10b10a2Srgb | b10g10r10a2Srgb
  | r10g10b10a2Bt2100Pq | b10g10r10a2Bt2100Pq => true
  | _ => false

def hasRedInLeastSignificantBits : VideoOutPixelFormat → Bool
  | r10g10b10a2 | r10g10b10a2Srgb | r10g10b10a2Bt2100Pq => true
  | _ => false

def isRgba : VideoOutPixelFormat → Bool
  | a8b8g8r8Srgb | r8g8b8a8Srgb => true
  | _ => false

end VideoOutPixelFormat

structure TextureDescriptor where
  address : UInt64
  width : ℕ
  height : ℕ
  format : ℕ
  tileMode : ℕ
  type : ℕ
  pitch : ℕ
deriving DecidableEq

structure DisplayBufferInfo where
  address : UInt64
  pixelFormat : VideoOutPixelFormat
  tilingMode : ℕ
  width : ℕ
  height : ℕ
  pitchInPixel : ℕ
deriving DecidableEq

def gen5TextureFormatR8G8B8A8Unorm : ℕ := 10
def gen5TextureType2D : ℕ := 9

def DisplayBufferInfo.pitch (destination : DisplayBufferInfo) : ℕ :=
  if destination.pitchInPixel = 0 then destination.width
  else destination.pitchInPixel

/-! ## Pixels -/

def expandUnorm8To10 (value : UInt8) : ℕ := (value.toNat * 1023 + 127) / 255

def packRgba8Pixel (format : VideoOutPixelFormat) (red green blue alpha : UInt8) :
    ℕ :=
  let red10 := expandUnorm8To10 red
  let green10 := expandUnorm8To10 green
  let blue10 := expandUnorm8To10 blue
  let alpha2 := (alpha.toNat * 3 + 127) / 255
  if format.hasRedInLeastSignificantBits then
    red10 ||| (green10 <<< 10) ||| (blue10 <<< 20) ||| (alpha2 <<< 30)
  else blue10 ||| (green10 <<< 10) ||| (red10 <<< 20) ||| (alpha2 <<< 30)

def convertPixel (format : VideoOutPixelFormat) (red green blue alpha : UInt8) :
    List UInt8 :=
  if format.isPacked10Bit then
    bytesOf 4 (packRgba8Pixel format red green blue alpha)
  else if format.isRgba then [red, green, blue, alpha]
  else [blue, green, red, alpha]

def destinationPixel (source : TextureDescriptor) (destination : DisplayBufferInfo)
    (sourceBytes : List UInt8) (y x : ℕ) : Option (List UInt8) := do
  let sourceY := y * source.height / destination.height
  let sourceX := x * source.width / destination.width
  let sourceOffset := (sourceY * source.width + sourceX) * 4
  let red ← sourceBytes[sourceOffset]?
  let green ← sourceBytes[sourceOffset + 1]?
  let blue ← sourceBytes[sourceOffset + 2]?
  let alpha ← sourceBytes[sourceOffset + 3]?
  return convertPixel destination.pixelFormat red green blue alpha

def destinationRow (source : TextureDescriptor) (destination : DisplayBufferInfo)
    (sourceBytes : List UInt8) (y : ℕ) : Option (List UInt8) :=
  ((List.range destination.width).mapM
      (destinationPixel source destination sourceBytes y)).map fun pixels =>
    pixels.flatten ++ List.replicate ((destination.pitch - destination.width) * 4) 0

/-- The loop over the rows from one on: the memory it leaves, and whether it ends
well, or with an exception. -/
def writeRows (source : TextureDescriptor) (destination : DisplayBufferInfo)
    (sourceBytes : List UInt8) :
    ℕ → ℕ → GuardedMemory → GuardedMemory × Option Bool
  | 0, _, memory => (memory, some true)
  | count + 1, y, memory =>
      match destinationRow source destination sourceBytes y with
      | none => (memory, none)
      | some row =>
          match memory.tryWrite
              (destination.address + .ofNat (y * destination.pitch * 4)) row with
          | none => (memory, some false)
          | some written =>
              writeRows source destination sourceBytes count (y + 1) written

/-! ## Presents -/

def computeFingerprint (bytes : List UInt8) : UInt64 :=
  bytes.foldl (fun fingerprint value =>
    (fingerprint ^^^ value.toUInt64) * 1099511628211) 14695981039346656037

structure PresenterState where
  memory : GuardedMemory
  fingerprints : UInt64 × UInt64 → Option UInt64

def IsCopied (source : TextureDescriptor) (destination : DisplayBufferInfo) :
    Prop :=
  source.format = gen5TextureFormatR8G8B8A8Unorm ∧ source.tileMode = 0 ∧
    source.type = gen5TextureType2D ∧ source.width ≤ 8192 ∧
    source.height ≤ 8192 ∧ destination.address ≠ 0 ∧ destination.width ≠ 0 ∧
    destination.height ≠ 0 ∧ destination.width ≤ 8192 ∧
    destination.height ≤ 8192 ∧ destination.tilingMode = 0 ∧
    destination.pixelFormat.isPresented ∧
    source.width * source.height * 4 ≤ 256 * 1024 * 1024

instance (source : TextureDescriptor) (destination : DisplayBufferInfo) :
    Decidable (IsCopied source destination) :=
  inferInstanceAs (Decidable (_ ∧ _))

def readSource (memory : GuardedMemory) (source : TextureDescriptor) : Option (List UInt8) :=
  readBytes memory.bytes source.address (source.width * source.height * 4)

def copyPixels (state : PresenterState) (source : TextureDescriptor)
    (destination : DisplayBufferInfo) (sourceBytes : List UInt8) :
    PresenterState × Option Bool :=
  if destination.pitch < destination.width then (state, some false)
  else if 0x7FFFFFFF < destination.pitch * 4 then (state, none)
  else
    let written := writeRows source destination sourceBytes destination.height 0 state.memory
    if written.2 = some true then
      (⟨written.1, Function.update state.fingerprints (source.address, destination.address)
        (some (computeFingerprint sourceBytes))⟩, some true)
    else (⟨written.1, state.fingerprints⟩, written.2)

/-- A present: what it leaves, and what it returns unless it ends with an
exception. -/
def trySoftwarePresent (state : PresenterState) (source : TextureDescriptor)
    (displayBuffer : Option DisplayBufferInfo) : PresenterState × Option Bool :=
  match displayBuffer with
  | none => (state, some false)
  | some destination =>
      if ¬ IsCopied source destination then (state, some false)
      else
        match readSource state.memory source with
        | none => (state, some false)
        | some sourceBytes =>
            if state.fingerprints (source.address, destination.address) =
                some (computeFingerprint sourceBytes) then (state, some true)
            else copyPixels state source destination sourceBytes

end SharpEmu.SoftwarePresenter
