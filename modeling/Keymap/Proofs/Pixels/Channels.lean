import Keymap.Proofs.Acceptance
import Keymap.Proofs.Checks

/-!
# Channels and buffers

The buffers divide the channels among themselves: a channel lies in the buffer up to
which the lengths before add up, however long the buffers are. The first channels of
the table stop at 32 bits, so that several buffers may begin at the last channel; the
first of them that has any length is the one that holds it. The channels of pixels are
found fault with exactly if one lies in no buffer or belongs to two pixels.
-/

namespace Keymap

open Config (Buffer Pixel PixelSection)

namespace PixelMap

/-- From the buffer on before which a channel does not lie, it lies in the buffer up to
which the lengths add up. -/
theorem locateIn_layOut_eq_some_iff {buffers : List Buffer} {base index channel i offset : Nat}
    (h : base ≤ channel) (hchannel : channel ≤ maxChannel) :
    locateIn channel index (layOut base buffers) = some (i, offset) ↔
      ∃ b buffer, i = index + b ∧ buffers[b]? = some buffer ∧ offset < buffer.length.toNat ∧
        base + Config.channelCount (buffers.take b) + offset = channel := by
  induction buffers generalizing base index with
  | nil => simp [layOut, locateIn]
  | cons first rest ih =>
    rw [layOut, locateIn]
    dsimp only
    split
    next hin =>
      constructor
      · intro hsome
        cases hsome
        refine ⟨0, first, rfl, rfl, hin.2, ?_⟩
        simp only [List.take_zero, Config.channelCount, List.map_nil, List.sum_nil]
        omega
      · rintro ⟨b, buffer, rfl, hbuffer, hlt, hsum⟩
        -- the channel lies in the first buffer, and so behind no other
        cases b with
        | zero =>
          simp only [List.take_zero, Config.channelCount, List.map_nil, List.sum_nil] at hsum
          rw [Nat.add_zero]
          congr 2
          omega
        | succ b =>
          simp only [List.take_succ_cons, Config.channelCount, List.map_cons, List.sum_cons] at hsum
          omega
    next hout =>
      have hnext : base + first.length.toNat ≤ channel := by omega
      -- the base of the next buffer is exact as long as it does not exceed the channel
      rw [Nat.min_eq_left (Nat.le_trans hnext hchannel), ih hnext]
      constructor
      · rintro ⟨b, buffer, rfl, hbuffer, hlt, hsum⟩
        refine ⟨b + 1, buffer, by omega, hbuffer, hlt, ?_⟩
        simp only [List.take_succ_cons, Config.channelCount, List.map_cons, List.sum_cons] at hsum ⊢
        omega
      · rintro ⟨b, buffer, rfl, hbuffer, hlt, hsum⟩
        cases b with
        | zero =>
          simp only [List.take_zero, Config.channelCount, List.map_nil, List.sum_nil] at hsum
          obtain rfl : first = buffer := Option.some.inj hbuffer
          omega
        | succ b =>
          refine ⟨b, buffer, by omega, hbuffer, hlt, ?_⟩
          simp only [List.take_succ_cons, Config.channelCount, List.map_cons,
            List.sum_cons] at hsum ⊢
          omega

/-- A channel of 32 bits is no greater than the greatest channel. -/
theorem toNat_le_maxChannel (channel : UInt32) : channel.toNat ≤ maxChannel :=
  Nat.le_sub_one_of_lt channel.toNat_lt

variable {declared : PixelSection}

/-- A channel is in the buffer where the lengths before it leave room for it. -/
theorem locate_build_eq_some_iff {channel b offset : Nat} (h : channel ≤ maxChannel) :
    (build declared).locate channel = some (b, offset) ↔
      ∃ buffer, declared.buffers[b]? = some buffer ∧ offset < buffer.length.toNat ∧
        Config.channelCount (declared.buffers.take b) + offset = channel := by
  rw [locate, build, locateIn_layOut_eq_some_iff (Nat.zero_le _) h]
  simp only [Nat.zero_add]
  constructor
  · rintro ⟨_, buffer, rfl, hplace⟩
    exact ⟨buffer, hplace⟩
  · rintro ⟨buffer, hplace⟩
    exact ⟨b, buffer, rfl, hplace⟩

/-- A channel is nowhere exactly if it is not below all lengths together. -/
theorem locate_build_eq_none_iff {channel : Nat} (h : channel ≤ maxChannel) :
    (build declared).locate channel = none ↔ Config.channelCount declared.buffers ≤ channel := by
  rw [← Option.not_isSome_iff_eq_none, locate, build, isSome_locateIn_layOut (Nat.zero_le _) h]
  omega

/-- The channels of the pixel table have 32 bits. -/
theorem Uses.le_maxChannel {id channel : Nat} (h : (build declared).Uses id channel) :
    channel ≤ maxChannel := by
  obtain ⟨i, entry, hentry, hchannel, _⟩ := h
  obtain ⟨n, _, rfl⟩ := List.mem_map.mp (List.mem_of_getElem? hentry)
  rw [channelsOf_entryOf] at hchannel
  cases hpixel : firstWithId declared.pixels (n + 1) with
  | none =>
    rw [hpixel] at hchannel
    exact absurd hchannel List.not_mem_nil
  | some pixel =>
    rw [hpixel] at hchannel
    obtain ⟨c, _, rfl⟩ := List.mem_map.mp hchannel
    exact toNat_le_maxChannel c

end PixelMap

namespace Validation

open PixelMap (build)

theorem isError_of_mem_channelFindings {map : PixelMap} {owners : List ChannelUse}
    {uses : List (Nat × Nat)} : ∀ f ∈ channelFindings map owners uses, f.isError = true := by
  induction uses generalizing owners with
  | nil => exact fun _ h => absurd h List.not_mem_nil
  | cons use rest ih =>
    unfold channelFindings
    split
    · exact List.forall_mem_cons.mpr ⟨rfl, ih⟩
    · split
      · exact ih
      · refine List.forall_mem_append.mpr ⟨?_, ih⟩
        split
        · exact fun _ h => absurd h List.not_mem_nil
        · exact List.forall_mem_singleton.mpr rfl

/-- The channels of pixels are not found fault with exactly if all lie in buffers and
none belongs to two pixels. -/
theorem pixelChannels_eq_nil_iff {declared : PixelSection} :
    pixelChannels (build declared) = [] ↔
      (∀ id channel, (build declared).Uses id channel →
        channel < Config.channelCount declared.buffers) ∧
      ∀ id other channel, (build declared).Uses id channel →
        (build declared).Uses other channel → id = other := by
  have hplaced : ∀ {id channel}, (build declared).Uses id channel →
      (Placed (build declared) [] (id, channel) ↔
        channel < Config.channelCount declared.buffers) := by
    intro id channel huse
    rw [← Nat.not_le, ← PixelMap.locate_build_eq_none_iff huse.le_maxChannel]
    simp [Placed, ownerOf, Option.ne_none_iff_exists']
  rw [pixelChannels, Clean.eq_nil_iff isError_of_mem_channelFindings, clean_channelFindings_iff]
  constructor
  · rintro ⟨hall, hexclusive⟩
    refine ⟨fun id channel huse => ?_, fun id other channel huse huse' => ?_⟩
    · exact (hplaced huse).mp (hall _ (PixelMap.mem_channelUses_iff.mpr huse))
    · exact hexclusive _ (PixelMap.mem_channelUses_iff.mpr huse) _
        (PixelMap.mem_channelUses_iff.mpr huse') rfl
  · rintro ⟨hin, hdisjoint⟩
    constructor
    · rintro ⟨id, channel⟩ hmem
      have huse := PixelMap.mem_channelUses_iff.mp hmem
      exact (hplaced huse).mpr (hin id channel huse)
    · rintro ⟨id, channel⟩ hmem ⟨other, channel'⟩ hmem' (rfl : channel = channel')
      exact hdisjoint id other channel (PixelMap.mem_channelUses_iff.mp hmem)
        (PixelMap.mem_channelUses_iff.mp hmem')

end Validation

namespace Config

/-- A channel is found in the buffer up to which the lengths, as numbers of any size, add
up, and in no buffer exactly if it is not below all lengths together. In the report there
is no finding on channels exactly if every channel of the pixel table is below all lengths
together and none belongs to two pixels. -/
theorem channels_located (declared : PixelSection) :
    (∀ channel : UInt32,
      (∀ b offset, (PixelMap.build declared).locate channel.toNat = some (b, offset) ↔
        ∃ buffer, declared.buffers[b]? = some buffer ∧ offset < buffer.length.toNat ∧
          channelCount (declared.buffers.take b) + offset = channel.toNat) ∧
      ((PixelMap.build declared).locate channel.toNat = none ↔
        channelCount declared.buffers ≤ channel.toNat)) ∧
    ∀ config : Config, config.pixels = some declared →
      (config.check.byCheck .pixelChannels = [] ↔
        (∀ id channel, (PixelMap.build declared).Uses id channel →
          channel < channelCount declared.buffers) ∧
        ∀ id other channel, (PixelMap.build declared).Uses id channel →
          (PixelMap.build declared).Uses other channel → id = other) := by
  refine ⟨fun channel => ⟨fun b offset => ?_, ?_⟩, fun config hpixels => ?_⟩
  · exact PixelMap.locate_build_eq_some_iff (PixelMap.toNat_le_maxChannel channel)
  · exact PixelMap.locate_build_eq_none_iff (PixelMap.toNat_le_maxChannel channel)
  · rw [byCheck_pixelChannels, hpixels]
    exact Validation.pixelChannels_eq_nil_iff

/-- Buffers with more channels than 32 bits number, three of which begin at the greatest
number in the table, and a pixel that has this channel twice. -/
def brimming : PixelSection where
  buffers := [⟨4294967295, 8, none, "first"⟩, ⟨0, 8, none, "empty"⟩, ⟨1, 8, none, "last"⟩,
    ⟨5, 8, none, "beyond"⟩]
  pixels := [⟨1, [4294967295, 0, 4294967295], none⟩, ⟨2, [3], none⟩]
  display := []
  ledBufferStruct := none
  frameFormat := {}

/-- The lengths add up beyond 32 bits, the greatest channel is the first of the third buffer
although others begin there too, and a pixel may use it twice. -/
theorem channels_located_brimming :
    channelCount brimming.buffers = 2 ^ 32 + 5 ∧
      (PixelMap.build brimming).locate 4294967295 = some (2, 0) ∧
      { sample with pixels := some brimming }.check.byCheck .pixelChannels = [] ∧
      ∀ id other channel, (PixelMap.build brimming).Uses id channel →
        (PixelMap.build brimming).Uses other channel → id = other := by
  have h := channels_located brimming
  have hnone : { sample with pixels := some brimming }.check.byCheck .pixelChannels = [] := by
    decide +kernel
  refine ⟨rfl, ((h.1 4294967295).1 2 0).mpr ⟨⟨1, 8, none, "last"⟩, rfl, by decide, rfl⟩, hnone, ?_⟩
  exact ((h.2 { sample with pixels := some brimming } rfl).mp hnone).2

end Config

end Keymap
