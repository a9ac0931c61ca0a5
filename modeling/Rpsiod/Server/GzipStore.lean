import Rpsiod.Lib.GzipStored
import Rpsiod.Util

/-!
# A gzip member without compression (`rpsiod_gzip_store`)

* `crc32Update_eq`: `crc32_update` is CRC-32.
* `readBlocks_gzipStoreLoop`: the blocks that the loop writes are read back.
* `gzipStore_iff`: **the output is a member that decodes to the input, unless the input is empty**;
  then the buffer is too small.
-/

namespace Rpsiod

/-! ### `crc32_update` -/

/-- The loop body over the bits. -/
def crc32Bit (crc : UInt32) : UInt32 := (crc >>> 1) ^^^ (0xEDB88320 &&& (0 - (crc &&& 1)))

/-- The loop body over the bytes. -/
def crc32Byte (crc : UInt32) (byte : UInt8) : UInt32 := crc32Bit^[8] (crc ^^^ byte.toUInt32)

/-- `crc32_update`. -/
def crc32Update (crc : UInt32) (data : Bytes) : UInt32 := ~~~data.foldl crc32Byte (~~~crc)

/-! ### `rpsiod_gzip_store` -/

/-- The ten bytes at the start. -/
def gzipHeader : Bytes := [0x1f, 0x8b, 0x08, 0x00, 0x00, 0x00, 0x00, 0x00, 0x00, 0x03]

/-- The header of a block: `LEN` and `NLEN`. -/
def storedHeader (final : Bool) (chunk : ℕ) : Bytes :=
  let len16 := UInt16.ofNat chunk
  let nlen16 := ~~~len16
  [if final then 0x01 else 0x00, (len16 &&& 0xff).toUInt8, ((len16 >>> 8) &&& 0xff).toUInt8,
    (nlen16 &&& 0xff).toUInt8, ((nlen16 >>> 8) &&& 0xff).toUInt8]

/-- The bytes of a block that starts here. -/
def storedChunk (input : Bytes) (pos : ℕ) : ℕ :=
  if 65535 < input.length - pos then 65535 else input.length - pos

/-- The loop over the blocks. -/
def gzipStoreLoop (input : Bytes) (pos : ℕ) : Bytes :=
  if pos < input.length || (input.length = 0 && pos = 0) then
    let chunk := storedChunk input pos
    let block := storedHeader (input.length ≤ pos + chunk) chunk ++ (input.drop pos).take chunk
    if input.length = 0 then block else block ++ gzipStoreLoop input (pos + chunk)
  else []
termination_by input.length - pos
decreasing_by
  unfold storedChunk
  simp only [Bool.or_eq_true, decide_eq_true_eq, Bool.and_eq_true] at *
  split_ifs <;> omega

/-- A number as four bytes, the lowest one first. -/
def fourBytes (n : UInt32) : Bytes :=
  (List.range 4).map fun i => ((n >>> UInt32.ofNat (i * 8)) &&& 0xff).toUInt8

/-- The bytes that are written. -/
def gzipStoreBytes (input : Bytes) : Bytes :=
  gzipHeader ++ gzipStoreLoop input 0 ++ fourBytes (crc32Update 0 input) ++
    fourBytes (UInt32.ofNat (input.length &&& 0xffffffff))

/-- `cap`: the bytes of the buffer. -/
def gzipStoreCap (inLen : ℕ) : ℕ := 10 + (inLen + 65534) / 65535 * 5 + inLen + 8

/-- `rpsiod_gzip_store`, with a buffer from `malloc`; nothing is said if a byte is written behind
its end. -/
def gzipStore (input : Bytes) : Option Bytes :=
  if (gzipStoreBytes input).length ≤ gzipStoreCap input.length then some (gzipStoreBytes input)
  else none

/-! ### The checksum -/

theorem toBitVec_crc32Bit (crc : UInt32) : (crc32Bit crc).toBitVec = Crc32.shift crc.toBitVec := by
  have hlow : crc.toBitVec &&& 1#32 =
      BitVec.setWidth 32 (BitVec.ofBool (crc.toBitVec.getLsbD 0)) :=
    BitVec.and_one_eq_setWidth_ofBool_getLsbD
  have hbit : (crc32Bit crc).toBitVec =
      (crc.toBitVec >>> 1) ^^^ (0xEDB88320#32 &&& (0#32 - (crc.toBitVec &&& 1#32))) := rfl
  unfold Crc32.shift
  rw [hbit, hlow]
  -- the mask is all ones, or zero
  cases crc.toBitVec.getLsbD 0 with
  | true =>
      rw [if_pos rfl]
      rfl
  | false =>
      have hmask : 0xEDB88320#32 &&& (0#32 - BitVec.setWidth 32 (BitVec.ofBool false)) = 0#32 := by
        decide
      rw [if_neg Bool.false_ne_true, hmask, BitVec.xor_zero]

theorem toBitVec_crc32Byte (crc : UInt32) (byte : UInt8) :
    (crc32Byte crc byte).toBitVec = Crc32.byteStep crc.toBitVec byte := by
  have hiterate : ∀ (k : ℕ) (r : UInt32),
      (crc32Bit^[k] r).toBitVec = Crc32.shift^[k] r.toBitVec := by
    intro k
    induction k with
    | zero => exact fun _ => rfl
    | succ k ih =>
        intro r
        rw [Function.iterate_succ_apply, Function.iterate_succ_apply, ih, toBitVec_crc32Bit]
  exact hiterate 8 (crc ^^^ byte.toUInt32)

/-- **`crc32_update` is CRC-32.** -/
theorem crc32Update_eq (data : Bytes) :
    (crc32Update 0 data).toNat = (Crc32.crc32 data).toNat := by
  have hregister : ∀ (r : UInt32),
      (data.foldl crc32Byte r).toBitVec = Crc32.register r.toBitVec data := by
    induction data with
    | nil => exact fun _ => rfl
    | cons byte data ih =>
        intro r
        rw [List.foldl_cons, ih, toBitVec_crc32Byte]
        rfl
  have hnot : (crc32Update 0 data).toBitVec = ~~~Crc32.register 0xFFFFFFFF#32 data := by
    unfold crc32Update
    rw [UInt32.toBitVec_not, hregister]
    rfl
  rw [Crc32.crc32_eq, ← hnot]
  rfl

example : crc32Update 0 (ascii "123456789") = 0xCBF43926 := by decide +kernel

/-! ### Numbers as bytes -/

theorem toNat_lowHalf (n : UInt16) : (n &&& 0xff).toUInt8.toNat = n.toNat % 256 := by
  have hmask : n.toNat &&& 255 = n.toNat % 256 := Nat.and_two_pow_sub_one_eq_mod n.toNat 8
  rw [UInt16.toNat_toUInt8, UInt16.toNat_and, show (0xff : UInt16).toNat = 255 from rfl, hmask]
  omega

/-- Two bytes of a number. -/
theorem readLE_two (n : UInt16) :
    Gzip.readLE [(n &&& 0xff).toUInt8, ((n >>> 8) &&& 0xff).toUInt8] = n.toNat := by
  have hshift : (n >>> 8).toNat = n.toNat / 256 := by
    rw [UInt16.toNat_shiftRight]
    exact Nat.shiftRight_eq_div_pow n.toNat 8
  have hlt := n.toNat_lt
  rw [Gzip.readLE, Gzip.readLE, Gzip.readLE, toNat_lowHalf, toNat_lowHalf, hshift]
  omega

theorem toNat_byteAt (n : UInt32) {k : ℕ} (hk : k < 32) :
    ((n >>> UInt32.ofNat k) &&& 0xff).toUInt8.toNat = n.toNat / 2 ^ k % 256 := by
  have hmask : ∀ m : ℕ, m &&& 255 = m % 256 := fun m => Nat.and_two_pow_sub_one_eq_mod m 8
  have hshift : (n >>> UInt32.ofNat k).toNat = n.toNat / 2 ^ k := by
    rw [UInt32.toNat_shiftRight, UInt32.toNat_ofNat', Nat.shiftRight_eq_div_pow]
    congr 2
    omega
  rw [UInt32.toNat_toUInt8, UInt32.toNat_and, show (0xff : UInt32).toNat = 255 from rfl, hmask,
    hshift]
  omega

/-- Four bytes of a number. -/
theorem readLE_fourBytes (n : UInt32) : Gzip.readLE (fourBytes n) = n.toNat := by
  have hbytes : fourBytes n = [((n >>> UInt32.ofNat 0) &&& 0xff).toUInt8,
      ((n >>> UInt32.ofNat 8) &&& 0xff).toUInt8, ((n >>> UInt32.ofNat 16) &&& 0xff).toUInt8,
      ((n >>> UInt32.ofNat 24) &&& 0xff).toUInt8] := rfl
  have hlt := n.toNat_lt
  rw [hbytes, Gzip.readLE, Gzip.readLE, Gzip.readLE, Gzip.readLE, Gzip.readLE,
    toNat_byteAt n (by decide), toNat_byteAt n (by decide), toNat_byteAt n (by decide),
    toNat_byteAt n (by decide)]
  omega

/-! ### The blocks -/

theorem storedChunk_le (input : Bytes) (pos : ℕ) :
    storedChunk input pos ≤ 65535 ∧ storedChunk input pos ≤ input.length - pos := by
  unfold storedChunk
  split_ifs <;> omega

/-- A block is read back. -/
theorem readBlock_stored (final : Bool) {data : Bytes} (hdata : data.length ≤ 65535)
    (rest : Bytes) :
    Gzip.readBlock (storedHeader final data.length ++ data ++ rest) =
      some (⟨final, data⟩, rest) := by
  have hlen : (UInt16.ofNat data.length).toNat = data.length := by
    rw [UInt16.toNat_ofNat']
    omega
  have hnlen : (~~~UInt16.ofNat data.length).toNat = 65535 - data.length := by
    rw [UInt16.toNat_not, hlen]
    rfl
  have hread := @Gzip.readBlock_append (if final then 0x01 else 0x00)
    (UInt16.ofNat data.length &&& 0xff).toUInt8 ((UInt16.ofNat data.length >>> 8) &&& 0xff).toUInt8
    (~~~UInt16.ofNat data.length &&& 0xff).toUInt8
    ((~~~UInt16.ofNat data.length >>> 8) &&& 0xff).toUInt8 data
    (by cases final <;> rfl) ((readLE_two _).trans hlen)
    (by rw [readLE_two, readLE_two, hlen, hnlen]; omega) rest
  rw [List.append_assoc]
  refine hread.trans ?_
  cases final <;> rfl

/-- There is data left, or this is the only block of an empty input. -/
def AtBlock (input : Bytes) (pos : ℕ) : Prop := pos < input.length ∨ (input = [] ∧ pos = 0)

theorem gzipStoreLoop_of_atBlock {input : Bytes} {pos : ℕ} (h : AtBlock input pos) :
    gzipStoreLoop input pos =
      storedHeader (input.length ≤ pos + storedChunk input pos) (storedChunk input pos) ++
        (input.drop pos).take (storedChunk input pos) ++
        if input.length = 0 then [] else gzipStoreLoop input (pos + storedChunk input pos) := by
  have hgo : (pos < input.length || (input.length = 0 && pos = 0)) = true := by
    rw [Bool.or_eq_true, Bool.and_eq_true, decide_eq_true_iff, decide_eq_true_iff,
      decide_eq_true_iff, List.length_eq_zero_iff]
    exact h
  rw [gzipStoreLoop, if_pos hgo]
  dsimp only
  split_ifs
  · rw [List.append_nil]
  · rfl

theorem gzipStoreLoop_end {input : Bytes} {pos : ℕ} (h : input.length ≤ pos) (hne : input ≠ []) :
    gzipStoreLoop input pos = [] := by
  rw [gzipStoreLoop, if_neg]
  rw [Bool.or_eq_true, Bool.and_eq_true, decide_eq_true_iff, decide_eq_true_iff,
    decide_eq_true_iff, List.length_eq_zero_iff]
  rintro (hlt | hnil)
  · omega
  · exact hne hnil.1

theorem length_chunk (input : Bytes) (pos : ℕ) :
    ((input.drop pos).take (storedChunk input pos)).length = storedChunk input pos := by
  rw [List.length_take, List.length_drop]
  exact min_eq_left (storedChunk_le input pos).2

/-- **The blocks that the loop writes are read back**, with the rest of the input as their data. -/
theorem readBlocks_gzipStoreLoop {input : Bytes} {pos fuel : ℕ} (h : AtBlock input pos)
    (hfuel : (gzipStoreLoop input pos).length ≤ fuel) (rest : Bytes) :
    ∃ blocks, Gzip.readBlocks fuel (gzipStoreLoop input pos ++ rest) = some (blocks, rest) ∧
      blocks.flatMap Gzip.Block.data = input.drop pos := by
  have hle := storedChunk_le input pos
  have hlength := length_chunk input pos
  induction fuel generalizing pos with
  | zero =>
      rw [gzipStoreLoop_of_atBlock h, List.length_append, List.length_append] at hfuel
      have hheader : (storedHeader (input.length ≤ pos + storedChunk input pos)
          (storedChunk input pos)).length = 5 := rfl
      omega
  | succ fuel ih =>
      rw [gzipStoreLoop_of_atBlock h] at hfuel ⊢
      set chunk := storedChunk input pos with hchunk
      set data := (input.drop pos).take chunk with hdata
      have hread := readBlock_stored (input.length ≤ pos + chunk) (hlength.trans_le hle.1)
        ((if input.length = 0 then [] else gzipStoreLoop input (pos + chunk)) ++ rest)
      rw [hlength] at hread
      rw [List.append_assoc _ _ rest]
      unfold Gzip.readBlocks
      rw [hread]
      dsimp only
      by_cases hfinal : input.length ≤ pos + chunk
      · have hbehind : (if input.length = 0 then [] else gzipStoreLoop input (pos + chunk)) = [] := by
          split_ifs with hempty
          · rfl
          · exact gzipStoreLoop_end hfinal fun hnil => hempty (List.length_eq_zero_iff.mpr hnil)
        rw [decide_eq_true hfinal, if_pos rfl, hbehind, List.nil_append]
        refine ⟨_, rfl, ?_⟩
        rw [List.flatMap_singleton, hdata, List.take_of_length_le]
        rw [List.length_drop]
        omega
      · have hpos : 0 < input.length := by omega
        have hnext : AtBlock input (pos + chunk) := Or.inl (not_le.mp hfinal)
        rw [if_neg hpos.ne'] at hfuel ⊢
        rw [List.length_append, List.length_append] at hfuel
        have hheader : (storedHeader (input.length ≤ pos + chunk) chunk).length = 5 := rfl
        obtain ⟨blocks, hblocks, hflat⟩ := ih hnext (by omega)
          (storedChunk_le input (pos + chunk)) (length_chunk input (pos + chunk))
        rw [decide_eq_false hfinal, if_neg Bool.false_ne_true, hblocks]
        refine ⟨_, rfl, ?_⟩
        rw [List.flatMap_cons, hflat, ← List.drop_drop]
        exact List.take_append_drop chunk (input.drop pos)

/-! ### The member -/

/-- **The bytes that are written decode to the input.** -/
theorem readMember_gzipStoreBytes (input : Bytes) :
    ∃ m, Gzip.readMember (gzipStoreBytes input) = some m ∧ m.Valid ∧ m.data = input := by
  have hstart : AtBlock input 0 := by
    cases input with
    | nil => exact Or.inr ⟨rfl, rfl⟩
    | cons byte input => exact Or.inl (Nat.succ_pos _)
  set crc := crc32Update 0 input with hcrc
  set isize := UInt32.ofNat (input.length &&& 0xffffffff) with hisize
  set body := gzipStoreLoop input 0 ++ (fourBytes crc ++ fourBytes isize) with hbody
  obtain ⟨blocks, hblocks, hflat⟩ := readBlocks_gzipStoreLoop hstart
    (show (gzipStoreLoop input 0).length ≤ body.length by rw [hbody, List.length_append]; omega)
    (fourBytes crc ++ fourBytes isize)
  have hbytes : gzipStoreBytes input = gzipHeader ++ body := by
    unfold gzipStoreBytes
    rw [List.append_assoc, List.append_assoc]
  refine ⟨⟨blocks, Gzip.readLE (fourBytes crc), Gzip.readLE (fourBytes isize)⟩, ?_, ?_, hflat⟩
  · rw [hbytes]
    exact Gzip.readMember_of_blocks hblocks
  · have hdata : blocks.flatMap Gzip.Block.data = input := hflat
    refine ⟨Gzip.readBlocks_final hblocks, ?_, ?_⟩
    · unfold Gzip.Member.data
      dsimp only
      rw [readLE_fourBytes, hdata, hcrc, crc32Update_eq]
    · unfold Gzip.Member.data
      dsimp only
      have hmask : input.length &&& 0xffffffff = input.length % 4294967296 :=
        Nat.and_two_pow_sub_one_eq_mod input.length 32
      rw [readLE_fourBytes, hdata, hisize, UInt32.toNat_ofNat', hmask]
      omega

/-- The bytes that the loop writes from here on. -/
theorem length_gzipStoreLoop {input : Bytes} (hne : input ≠ []) {n pos : ℕ}
    (hn : input.length - pos = n) :
    (gzipStoreLoop input pos).length = n + (n + 65534) / 65535 * 5 := by
  induction n using Nat.strong_induction_on generalizing pos with
  | _ n ih =>
      by_cases hend : input.length ≤ pos
      · rw [gzipStoreLoop_end hend hne, List.length_nil]
        omega
      · have hpos : 0 < input.length := List.length_pos_of_ne_nil hne
        have hheader : (storedHeader (input.length ≤ pos + storedChunk input pos)
            (storedChunk input pos)).length = 5 := rfl
        have hchunk : storedChunk input pos = if 65535 < n then 65535 else n := by
          unfold storedChunk
          rw [hn]
        rw [gzipStoreLoop_of_atBlock (Or.inl (not_le.mp hend)), if_neg hpos.ne', List.length_append,
          List.length_append, hheader, length_chunk, ih (n - storedChunk input pos)
            (by split_ifs at hchunk <;> omega) (by omega), hchunk]
        split_ifs <;> omega

/-- The buffer is filled, unless the input is empty. -/
theorem length_gzipStoreBytes (input : Bytes) :
    (gzipStoreBytes input).length ≤ gzipStoreCap input.length ↔ input ≠ [] := by
  constructor
  · rintro hle rfl
    exact absurd hle (by decide +kernel)
  · intro hne
    have htrailer : ∀ n, (fourBytes n).length = 4 := fun _ => rfl
    have hheader : gzipHeader.length = 10 := rfl
    unfold gzipStoreBytes gzipStoreCap
    rw [List.length_append, List.length_append, List.length_append, htrailer, htrailer, hheader,
      length_gzipStoreLoop hne (Nat.sub_zero _)]
    omega

/-- **The output is a member that decodes to the input, exactly when the input is not empty**: the
buffer for an empty input has no room for its block. -/
theorem gzipStore_iff (input : Bytes) :
    (∃ out m, gzipStore input = some out ∧ Gzip.readMember out = some m ∧ m.Valid ∧
      m.data = input) ↔ input ≠ [] := by
  rw [← length_gzipStoreBytes]
  unfold gzipStore
  split_ifs with hroom
  · obtain ⟨m, hread, hvalid, hdata⟩ := readMember_gzipStoreBytes input
    exact iff_of_true ⟨_, m, rfl, hread, hvalid, hdata⟩ hroom
  · refine iff_of_false ?_ hroom
    rintro ⟨out, m, hnone, -⟩
    cases hnone

theorem gzipStore_empty :
    gzipStoreCap 0 = 18 ∧ (gzipStoreBytes []).length = 23 ∧ gzipStore [] = none := by
  have hroom : ¬ (gzipStoreBytes []).length ≤ gzipStoreCap ([] : Bytes).length :=
    fun hle => (length_gzipStoreBytes []).mp hle rfl
  refine ⟨rfl, by decide +kernel, ?_⟩
  unfold gzipStore
  rw [if_neg hroom]

end Rpsiod
