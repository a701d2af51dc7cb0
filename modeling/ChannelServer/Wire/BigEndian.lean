/-!
# Big-endian words

Words of two and four bytes, most significant byte first. Splitting and joining are inverse to each
other in both directions, so a field that is read from bytes is written back as the same bytes.
-/

namespace ChannelServer.Wire

/-- A word from its two bytes. -/
def joinWord16 (b₁ b₀ : UInt8) : UInt16 :=
  UInt16.ofNat (b₁.toNat * 256 + b₀.toNat)

/-- The two bytes of a word. -/
def word16 (w : UInt16) : List UInt8 :=
  [UInt8.ofNat (w.toNat / 256), UInt8.ofNat w.toNat]

/-- A word from its four bytes. -/
def joinWord32 (b₃ b₂ b₁ b₀ : UInt8) : UInt32 :=
  UInt32.ofNat (((b₃.toNat * 256 + b₂.toNat) * 256 + b₁.toNat) * 256 + b₀.toNat)

/-- The four bytes of a word. -/
def word32 (w : UInt32) : List UInt8 :=
  [UInt8.ofNat (w.toNat / 16777216), UInt8.ofNat (w.toNat / 65536), UInt8.ofNat (w.toNat / 256),
    UInt8.ofNat w.toNat]

theorem joinWord16_bytes (w : UInt16) :
    joinWord16 (UInt8.ofNat (w.toNat / 256)) (UInt8.ofNat w.toNat) = w := by
  apply UInt16.toNat_inj.1
  have := w.toNat_lt
  simp only [joinWord16, UInt16.toNat_ofNat', UInt8.toNat_ofNat']
  omega

theorem joinWord32_bytes (w : UInt32) :
    joinWord32 (UInt8.ofNat (w.toNat / 16777216)) (UInt8.ofNat (w.toNat / 65536))
      (UInt8.ofNat (w.toNat / 256)) (UInt8.ofNat w.toNat) = w := by
  apply UInt32.toNat_inj.1
  have := w.toNat_lt
  simp only [joinWord32, UInt32.toNat_ofNat', UInt8.toNat_ofNat']
  omega

theorem word16_join (b₁ b₀ : UInt8) : word16 (joinWord16 b₁ b₀) = [b₁, b₀] := by
  have h₁ := b₁.toNat_lt
  have h₀ := b₀.toNat_lt
  simp only [word16, joinWord16, List.cons.injEq, and_true, ← UInt8.toNat_inj,
    UInt8.toNat_ofNat', UInt16.toNat_ofNat']
  omega

theorem word32_join (b₃ b₂ b₁ b₀ : UInt8) :
    word32 (joinWord32 b₃ b₂ b₁ b₀) = [b₃, b₂, b₁, b₀] := by
  have h₃ := b₃.toNat_lt
  have h₂ := b₂.toNat_lt
  have h₁ := b₁.toNat_lt
  have h₀ := b₀.toNat_lt
  simp only [word32, joinWord32, List.cons.injEq, and_true, ← UInt8.toNat_inj,
    UInt8.toNat_ofNat', UInt32.toNat_ofNat']
  omega

end ChannelServer.Wire
