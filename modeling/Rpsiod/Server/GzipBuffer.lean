import Rpsiod.Server.GzipStore

/-!
# The buffer of `rpsiod_gzip_store`

The function of `compress.c` once more, with the index `p` and every byte that is written through it.

* `StoreBuffer`, `storeBlocks`, `gzipStoreBuffer`: the function, write by write.
* `gzipStoreBuffer_filled`: the writes are the bytes of the member, one behind the other.
* `staysInBuffer_iff`: **no write leaves the buffer, unless the input is empty**, and `p` counts them.
-/

namespace Rpsiod

/-- `buf` while it is filled: `p`, and the bytes with the places where they have been written. -/
structure StoreBuffer where
  p : ℕ := 0
  writes : List (UInt8 × ℕ) := []

/-- `buf[p++] = byte;` -/
def StoreBuffer.put (b : StoreBuffer) (byte : UInt8) : StoreBuffer where
  p := b.p + 1
  writes := b.writes ++ [(byte, b.p)]

/-- `memcpy(buf + p, data, n); p += n;` -/
def StoreBuffer.copy (b : StoreBuffer) (data : Bytes) : StoreBuffer where
  p := b.p + data.length
  writes := b.writes ++ data.zipIdx b.p

/-- A block. -/
def StoreBuffer.block (b : StoreBuffer) (input : Bytes) (pos : ℕ) : StoreBuffer :=
  let chunk := storedChunk input pos
  let b := (storedHeader (input.length ≤ pos + chunk) chunk).foldl StoreBuffer.put b
  if 0 < chunk then b.copy ((input.drop pos).take chunk) else b

/-- The loop over the blocks. -/
def storeBlocks (input : Bytes) (pos : ℕ) (b : StoreBuffer) : StoreBuffer :=
  if pos < input.length || (input.length = 0 && pos = 0) then
    if input.length = 0 then b.block input pos
    else storeBlocks input (pos + storedChunk input pos) (b.block input pos)
  else b
termination_by input.length - pos
decreasing_by
  unfold storedChunk
  simp only [Bool.or_eq_true, decide_eq_true_eq, Bool.and_eq_true] at *
  split_ifs <;> omega

/-- All that `rpsiod_gzip_store` writes; `p` is what it reports. -/
def gzipStoreBuffer (input : Bytes) : StoreBuffer :=
  let b := storeBlocks input 0 (gzipHeader.foldl StoreBuffer.put {})
  let b := (fourBytes (crc32Update 0 input)).foldl StoreBuffer.put b
  (fourBytes (UInt32.ofNat (input.length &&& 0xffffffff))).foldl StoreBuffer.put b

/-- Every write stays within the capacity, and the length that is reported is their number. -/
def StaysInBuffer (input : Bytes) : Prop :=
  (∀ w ∈ (gzipStoreBuffer input).writes, w.2 < gzipStoreCap input.length) ∧
    (gzipStoreBuffer input).p = (gzipStoreBuffer input).writes.length

/-! ### The writes -/

/-- The bytes have been written one behind the other, from the start. -/
structure StoreBuffer.Filled (b : StoreBuffer) (bytes : Bytes) : Prop where
  p_eq : b.p = bytes.length
  writes_eq : b.writes = bytes.zipIdx

theorem StoreBuffer.Filled.copy {b : StoreBuffer} {bytes : Bytes} (h : b.Filled bytes)
    (data : Bytes) : (b.copy data).Filled (bytes ++ data) := by
  constructor
  · rw [List.length_append, ← h.p_eq]
    rfl
  · rw [List.zipIdx_append, ← h.writes_eq, Nat.zero_add, ← h.p_eq]
    rfl

theorem StoreBuffer.Filled.puts {b : StoreBuffer} {bytes : Bytes} (h : b.Filled bytes)
    (more : Bytes) : (more.foldl StoreBuffer.put b).Filled (bytes ++ more) := by
  induction more generalizing b bytes with
  | nil => simpa using h
  | cons byte more ih =>
      have hput : (b.put byte).Filled (bytes ++ [byte]) := h.copy [byte]
      have hmore := ih hput
      rwa [List.append_assoc, List.singleton_append] at hmore

theorem StoreBuffer.Filled.block {b : StoreBuffer} {bytes : Bytes} (h : b.Filled bytes)
    (input : Bytes) (pos : ℕ) :
    (b.block input pos).Filled
      (bytes ++ (storedHeader (input.length ≤ pos + storedChunk input pos)
        (storedChunk input pos) ++ (input.drop pos).take (storedChunk input pos))) := by
  have hheader := h.puts (storedHeader (input.length ≤ pos + storedChunk input pos)
    (storedChunk input pos))
  unfold StoreBuffer.block
  dsimp only
  split_ifs with hpos
  · rw [← List.append_assoc]
    exact hheader.copy _
  · have hzero : storedChunk input pos = 0 := Nat.eq_zero_of_not_pos hpos
    rw [hzero, List.take_zero, List.append_nil]
    rw [hzero] at hheader
    exact hheader

/-- The loop writes what it is said to write. -/
theorem StoreBuffer.Filled.blocks {input : Bytes} {n pos : ℕ} (hn : input.length - pos = n)
    {b : StoreBuffer} {bytes : Bytes} (h : b.Filled bytes) :
    (storeBlocks input pos b).Filled (bytes ++ gzipStoreLoop input pos) := by
  induction n using Nat.strong_induction_on generalizing pos b bytes with
  | _ n ih =>
      rw [storeBlocks, gzipStoreLoop]
      by_cases hgo : (pos < input.length || (input.length = 0 && pos = 0)) = true
      · rw [if_pos hgo, if_pos hgo]
        dsimp only
        have hblock := h.block input pos
        by_cases hempty : input.length = 0
        · rw [if_pos hempty, if_pos hempty]
          exact hblock
        · have hshorter : input.length - (pos + storedChunk input pos) < n := by
            simp only [Bool.or_eq_true, Bool.and_eq_true, decide_eq_true_iff] at hgo
            unfold storedChunk
            split_ifs <;> omega
          rw [if_neg hempty, if_neg hempty, ← List.append_assoc]
          exact ih _ hshorter rfl hblock
      · rw [if_neg hgo, if_neg hgo, List.append_nil]
        exact h

/-- The writes are the bytes of the member. -/
theorem gzipStoreBuffer_filled (input : Bytes) :
    (gzipStoreBuffer input).Filled (gzipStoreBytes input) := by
  have hstart : StoreBuffer.Filled {} [] := ⟨rfl, rfl⟩
  have hheader := hstart.puts gzipHeader
  rw [List.nil_append] at hheader
  have hblocks := @StoreBuffer.Filled.blocks input _ 0 rfl _ _ hheader
  exact (hblocks.puts _).puts _

/-! ### The capacity -/

/-- **No write leaves the buffer, exactly when the input is not empty.** -/
theorem staysInBuffer_iff (input : Bytes) : StaysInBuffer input ↔ input ≠ [] := by
  have hfilled := gzipStoreBuffer_filled input
  have hcount : (gzipStoreBuffer input).p = (gzipStoreBuffer input).writes.length := by
    rw [hfilled.p_eq, hfilled.writes_eq, List.length_zipIdx]
  rw [← length_gzipStoreBytes]
  unfold StaysInBuffer
  rw [hfilled.writes_eq] at hcount ⊢
  constructor
  · rintro ⟨hroom, -⟩
    by_contra hlong
    -- there is a write at the capacity itself
    have hlt : gzipStoreCap input.length < (gzipStoreBytes input).length := not_le.mp hlong
    have hmem : ((gzipStoreBytes input)[gzipStoreCap input.length], gzipStoreCap input.length) ∈
        (gzipStoreBytes input).zipIdx := by
      rw [List.mk_mem_zipIdx_iff_getElem?]
      exact List.getElem?_eq_getElem hlt
    exact absurd (hroom _ hmem) (lt_irrefl _)
  · intro hroom
    refine ⟨fun w hw => ?_, hcount⟩
    have hlt := List.snd_lt_of_mem_zipIdx hw
    omega

/-- The capacity for an empty input is 18, and the last of 23 bytes are written behind it. -/
theorem staysInBuffer_empty :
    gzipStoreCap 0 = 18 ∧ (0, 18) ∈ (gzipStoreBuffer []).writes ∧
      (gzipStoreBuffer []).p = 23 ∧ ¬ StaysInBuffer [] := by
  have hfilled := gzipStoreBuffer_filled []
  refine ⟨rfl, ?_, ?_, ?_⟩
  · rw [hfilled.writes_eq]
    decide +kernel
  · rw [hfilled.p_eq]
    decide +kernel
  · rintro ⟨hroom, -⟩
    have hmem : ((0, 18) : UInt8 × ℕ) ∈ (gzipStoreBuffer []).writes := by
      rw [hfilled.writes_eq]
      decide +kernel
    exact absurd (hroom _ hmem) (by decide)

end Rpsiod
