import SharpEmu.SubmittedDrawParameters

/-!
# Bounds of submitted draws

Whatever packets a queue is given, and whatever memory holds when they are
parsed, the renderer gets no draw of nothing and whole index buffers, and each
draw asks for a vertex record for every index and for every instance.  How many
records are captured is left to the capture of the vertex inputs.
-/

namespace SharpEmu.Agc.Draws

open Addressed

structure TranslatedDraw.Bounded (draw : TranslatedDraw) : Prop where
  drawn : draw.vertexCount ≠ 0 ∧ draw.vertexCount ≤ maxDrawCount ∧
    draw.instanceCount ≠ 0
  whole : ∀ buffer ∈ draw.indexBuffer, buffer.data.length =
    draw.vertexCount.toNat * bytesPerIndex buffer.is32Bit
  instances : ∀ records ∈ draw.vertexRecords, draw.instanceCount ≤ records
  indices : ∀ records ∈ draw.vertexRecords, ∀ buffer ∈ draw.indexBuffer,
    ∀ vertex ∈ indexValues (bytesPerIndex buffer.is32Bit)
        draw.vertexCount.toNat buffer.data,
      vertex ≠ restartMarker buffer.is32Bit → vertex < records

section

variable {memory : GuardedMemory} {state : SubmittedDrawState}
  {count records : UInt32} {indexed : Bool}

variable {buffer : GuestIndexBuffer}

theorem createGuestIndexBuffer_eq_some
    (isBuffer : createGuestIndexBuffer memory state count = some buffer) :
    ¬(state.indexBufferAddress = 0 ∨ count = 0) ∧ buffer.is32Bit = state.is32Bit ∧
      readBytes memory.bytes state.indexAddress
        (count.toNat * bytesPerIndex state.is32Bit) = some buffer.data := by
  rw [createGuestIndexBuffer] at isBuffer
  split at isBuffer
  · cases isBuffer
  · next present =>
    obtain ⟨data, isRead, rfl⟩ := Option.map_eq_some_iff.mp isBuffer
    exact ⟨present, rfl, isRead⟩

theorem instanceCount_le_records
    (isRecords : tryGetRequiredVertexRecordCount memory state count indexed =
      some records) : state.instanceCount ≤ records := by
  have inside (other : UInt32) : state.instanceCount ≤ max other (max state.instanceCount 1) := by
    rw [UInt32.le_iff_toNat_le, toNat_max, toNat_max]
    omega
  rw [tryGetRequiredVertexRecordCount] at isRecords
  split at isRecords
  · exact Option.some.inj isRecords ▸ inside _
  · split at isRecords
    · cases isRecords
    · obtain ⟨seen, -, rfl⟩ := Option.map_eq_some_iff.mp isRecords
      exact inside _

/-- The indices are looked through where the buffer is copied from. -/
theorem index_lt_records {vertex : UInt32}
    (isBuffer : createGuestIndexBuffer memory state count = some buffer)
    (isRecords : tryGetRequiredVertexRecordCount memory state count true = some records)
    (isIndex : vertex ∈ indexValues (bytesPerIndex buffer.is32Bit) count.toNat buffer.data)
    (notMarker : vertex ≠ restartMarker buffer.is32Bit) : vertex < records := by
  obtain ⟨present, isWide, isRead⟩ := createGuestIndexBuffer_eq_some isBuffer
  rw [isWide] at isIndex notMarker
  have scanned := scanIndices_eq ⟨0, false⟩ (Nat.le_refl _) isRead
  simp only [tryGetRequiredVertexRecordCount, Bool.not_true,
    Bool.false_eq_true, if_false, if_neg present, scanned, Option.map_some]
    at isRecords
  obtain rfl := Option.some.inj isRecords
  obtain ⟨valid, -, covers⟩ := foldl_see (restartMarker state.is32Bit)
    (indexValues (bytesPerIndex state.is32Bit) count.toNat buffer.data)
    see_start_valid (by
      intro value isValue unmarked isLargest
      have below := lt_of_mem_indexValues isValue
      cases wide : state.is32Bit with
      | true =>
        rw [wide] at unmarked
        exact unmarked isLargest
      | false =>
        rw [wide, isLargest] at below
        exact absurd below (by decide))
  have inside := covers vertex isIndex notMarker
  rw [UInt32.lt_iff_toNat_lt, toNat_max, valid.toNat_records]
  omega

theorem tryTranslateGuestDraw_bounded (instances : state.instanceCount ≠ 0) {draw : TranslatedDraw}
    (isDraw : tryTranslateGuestDraw memory state count indexed = some draw) :
    draw.Bounded := by
  rw [tryTranslateGuestDraw] at isDraw
  split at isDraw
  · cases isDraw
  next drawn =>
  obtain ⟨positive, few⟩ := not_or.mp drawn
  obtain rfl := Option.some.inj isDraw
  have indexedBy {buffer : GuestIndexBuffer} (isBuffer : buffer ∈ if indexed then
        createGuestIndexBuffer memory state count else none) :
      indexed ∧ createGuestIndexBuffer memory state count = some buffer := by
    simpa using isBuffer
  constructor
  · exact ⟨positive, UInt32.not_lt.mp few, instances⟩
  · intro buffer isBuffer
    obtain ⟨-, isWide, isRead⟩ :=
      createGuestIndexBuffer_eq_some (indexedBy isBuffer).2
    rw [length_of_readBytes isRead, isWide]
  · intro records isRecords
    exact instanceCount_le_records isRecords
  · intro records isRecords buffer isBuffer vertex isIndex notMarker
    obtain ⟨rfl, isBuffer⟩ := indexedBy isBuffer
    exact index_lt_records isBuffer isRecords isIndex notMarker

end

variable {before : SubmittedDrawState}

theorem submitPacket_bounded (instances : before.instanceCount ≠ 0) (packet : SubmittedPacket) :
    ∀ draw ∈ (submitPacket before packet).2, draw.Bounded := by
  intro draw isDraw
  rw [submitPacket] at isDraw
  split at isDraw
  · cases isDraw
  · obtain ⟨count, -, isDraw⟩ := Option.bind_eq_some_iff.mp isDraw
    apply tryTranslateGuestDraw_bounded _ isDraw
    exact applyStatePacket_instanceCount instances packet

theorem submitPackets_bounded_from
    (instances : before.instanceCount ≠ 0) (packets : List SubmittedPacket) :
    ∀ draw ∈ submitPackets before packets, draw.Bounded := by
  induction packets generalizing before with
  | nil => exact nofun
  | cons packet rest ih =>
    intro draw isDraw
    rcases List.mem_append.mp isDraw with here | later
    · exact submitPacket_bounded instances packet draw (Option.mem_toList.mp here)
    · have next : (submitPacket before packet).1.instanceCount ≠ 0 := by
        rw [submitPacket_context before packet]
        exact applyStatePacket_instanceCount instances packet
      exact ih next draw later

/-- Every draw that reaches the renderer is within the buffers that it gets. -/
theorem submitPackets_bounded (packets : List SubmittedPacket) :
    ∀ draw ∈ submitPackets .initial packets, draw.Bounded :=
  submitPackets_bounded_from (by decide) packets

theorem submitPackets_bounded_withBase :
    ∃ draw ∈ submitPackets .initial [indexBasePacket, drawIndex2Packet],
      draw.Bounded := by
  obtain ⟨draw, isDraw⟩ := List.exists_mem_of_length_pos (show 0 < (submitPackets .initial
      [indexBasePacket, drawIndex2Packet]).length by decide +kernel)
  exact ⟨draw, isDraw, submitPackets_bounded _ draw isDraw⟩

end SharpEmu.Agc.Draws
