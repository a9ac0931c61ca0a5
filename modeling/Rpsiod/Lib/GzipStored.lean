import Rpsiod.Lib.Crc32

/-!
# Gzip members of stored blocks

A decoder for gzip members without optional fields whose DEFLATE blocks are all stored, that is, not
compressed.  Such a block starts at a byte.

* `readMember`: the decoder.
* `Member.Valid`: the checksum and the length at the end are those of the data.
* `readBlock_append`: what is put together as a block is read back.
-/

namespace Gzip

/-- A number, its lowest byte first. -/
def readLE : List UInt8 → ℕ
  | [] => 0
  | byte :: rest => byte.toNat + 256 * readLE rest

/-- A stored block. -/
structure Block where
  final : Bool
  data : List UInt8

/-- A block is read: `BTYPE` is 0, `LEN` and `NLEN` are complements, and `LEN` bytes follow. -/
def readBlock : List UInt8 → Option (Block × List UInt8)
  | flags :: len₀ :: len₁ :: nlen₀ :: nlen₁ :: rest =>
      let len := readLE [len₀, len₁]
      if flags.toNat / 2 % 4 = 0 ∧ len + readLE [nlen₀, nlen₁] = 65535 ∧ len ≤ rest.length then
        some (⟨flags.toNat % 2 = 1, rest.take len⟩, rest.drop len)
      else none
  | _ => none

/-- Blocks are read up to the final one. -/
def readBlocks : ℕ → List UInt8 → Option (List Block × List UInt8)
  | 0, _ => none
  | fuel + 1, input =>
      match readBlock input with
      | none => none
      | some (block, rest) =>
          if block.final then some ([block], rest)
          else (readBlocks fuel rest).map fun r => (block :: r.1, r.2)

/-- What a member says of its data. -/
structure Member where
  blocks : List Block
  crc : ℕ
  isize : ℕ

/-- The data of a member. -/
def Member.data (m : Member) : List UInt8 := m.blocks.flatMap Block.data

/-- A member is read, from its first byte to the last. -/
def readMember : List UInt8 → Option Member
  | id₁ :: id₂ :: cm :: flg :: _ :: _ :: _ :: _ :: _ :: _ :: body =>
      if id₁ = 0x1f ∧ id₂ = 0x8b ∧ cm = 8 ∧ flg = 0 then
        match readBlocks body.length body with
        | some (blocks, [c₀, c₁, c₂, c₃, s₀, s₁, s₂, s₃]) =>
            some ⟨blocks, readLE [c₀, c₁, c₂, c₃], readLE [s₀, s₁, s₂, s₃]⟩
        | _ => none
      else none
  | _ => none

/-- The blocks end with the final one, and the trailer is that of the data. -/
structure Member.Valid (m : Member) : Prop where
  final : ∃ init last, m.blocks = init ++ [last] ∧ last.final = true ∧
    ∀ block ∈ init, block.final = false
  crc : m.crc = (Crc32.crc32 m.data).toNat
  isize : m.isize = m.data.length % 4294967296

/-! ### Reading -/

/-- Exactly the last block is final. -/
theorem readBlocks_final {fuel : ℕ} {input rest : List UInt8} {blocks : List Block}
    (h : readBlocks fuel input = some (blocks, rest)) :
    ∃ init last, blocks = init ++ [last] ∧ last.final = true ∧
      ∀ block ∈ init, block.final = false := by
  induction fuel generalizing input blocks with
  | zero => cases h
  | succ fuel ih =>
      unfold readBlocks at h
      cases hblock : readBlock input with
      | none =>
          rw [hblock] at h
          cases h
      | some found =>
          obtain ⟨block, behind⟩ := found
          rw [hblock] at h
          dsimp only at h
          split_ifs at h with hfinal
          · obtain ⟨rfl, rfl⟩ := Prod.mk.inj (Option.some.inj h)
            exact ⟨[], block, rfl, hfinal, fun _ hmem => absurd hmem List.not_mem_nil⟩
          · obtain ⟨⟨blocks', rest'⟩, hrest, heq⟩ := Option.map_eq_some_iff.mp h
            obtain ⟨rfl, rfl⟩ := Prod.mk.inj heq
            obtain ⟨init, last, hblocks, hlast, hinit⟩ := ih hrest
            refine ⟨block :: init, last, ?_, hlast, ?_⟩
            · dsimp only at hblocks ⊢
              rw [hblocks]
              rfl
            · intro b hb
              rcases List.mem_cons.mp hb with rfl | hb
              · exact Bool.not_eq_true _ ▸ hfinal
              · exact hinit b hb

/-- A block that says of what follows how long it is. -/
theorem readBlock_append {flags len₀ len₁ nlen₀ nlen₁ : UInt8} {data : List UInt8}
    (hflags : flags.toNat / 2 % 4 = 0) (hlen : readLE [len₀, len₁] = data.length)
    (hnlen : readLE [len₀, len₁] + readLE [nlen₀, nlen₁] = 65535) (rest : List UInt8) :
    readBlock (flags :: len₀ :: len₁ :: nlen₀ :: nlen₁ :: (data ++ rest)) =
      some (⟨flags.toNat % 2 = 1, data⟩, rest) := by
  unfold readBlock
  dsimp only
  rw [if_pos ⟨hflags, hnlen, by rw [hlen, List.length_append]; omega⟩, hlen,
    List.take_left, List.drop_left]

/-- A header, blocks and a trailer. -/
theorem readMember_of_blocks {t₀ t₁ t₂ t₃ xfl os c₀ c₁ c₂ c₃ s₀ s₁ s₂ s₃ : UInt8}
    {body : List UInt8} {blocks : List Block}
    (h : readBlocks body.length body = some (blocks, [c₀, c₁, c₂, c₃, s₀, s₁, s₂, s₃])) :
    readMember (0x1f :: 0x8b :: 8 :: 0 :: t₀ :: t₁ :: t₂ :: t₃ :: xfl :: os :: body) =
      some ⟨blocks, readLE [c₀, c₁, c₂, c₃], readLE [s₀, s₁, s₂, s₃]⟩ := by
  unfold readMember
  dsimp only
  rw [if_pos ⟨rfl, rfl, rfl, rfl⟩, h]

end Gzip
