import ChannelServer.Proofs.Fate
import ChannelServer.Proofs.Roster

/-!
# Sound registries

What every reachable registry keeps, besides the forest: its limits, metadata that passes the check,
no reserved id, and one default channel at most, which is a top channel.

Nearly every turn of a channel is tame: it leaves the channel sound, and does not make it the
default channel.  A change whose turns are tame keeps everything there is to keep.  Only a new
channel and a new default channel need a look of their own.

## Main results

* `Sound.change`: every change keeps a registry sound.
* `sound_of_reachable`: every reachable registry is sound.
* `step_relates_of_sound`: what holds of the changes of sound registries holds of operations.
-/

namespace ChannelServer

/-- What is kept of every single channel. -/
structure Channel.Sound (c : Channel) : Prop where
  valid : c.info.check = .ok ()
  named : c.id ≠ .reserved
  /-- A subchannel does not have the default flag. -/
  below : c.parent ≠ none → c.info.flags.has .default = false

/-- A channel and what a tame turn makes of it. -/
structure Channel.Tamed (c c' : Channel) : Prop where
  sound : c.Sound → c'.Sound
  default : c'.info.flags.has .default = true → c.info.flags.has .default = true

namespace Channel

variable {c c' : Channel}

theorem Tamed.refl (c : Channel) : c.Tamed c := ⟨fun h => h, fun h => h⟩

theorem Tamed.trans {c'' : Channel} (h : c.Tamed c') (h' : c'.Tamed c'') : c.Tamed c'' :=
  ⟨fun hsound => h'.sound (h.sound hsound), fun hdefault => h.default (h'.default hdefault)⟩

/-- Whatever leaves the id, the metadata and the parent alone is tame. -/
theorem tamed_of_same (hid : c'.id = c.id) (hinfo : c'.info = c.info)
    (hparent : c'.parent = c.parent) : c.Tamed c' where
  sound h :=
    { valid := hinfo ▸ h.valid
      named := hid ▸ h.named
      below := by rw [hinfo, hparent]; exact h.below }
  default h := by rwa [hinfo] at h

theorem tamed_rise : c.Tamed c.rise where
  sound h :=
    { valid := h.valid
      named := h.named
      below := fun hbelow => absurd rfl hbelow }
  default h := h

/-- Only what is not the default channel goes below a parent. -/
theorem tamed_sink (parent : ChannelId)
    (h : c.parent = none → c.info.flags.has .default = false) : c.Tamed (c.sink parent) where
  sound hsound :=
    { valid := hsound.valid
      named := hsound.named
      below := fun _ => by
        by_cases htop : c.parent = none
        · exact h htop
        · exact hsound.below htop }
  default h := h

theorem not_default_resignDefault : c.resignDefault.info.flags.has .default = false :=
  Flags.not_has_without _ (by decide) (by decide)

theorem tamed_resignDefault : c.Tamed c.resignDefault where
  sound h :=
    { valid := by
        obtain ⟨htexts, -⟩ := Metadata.check_eq_ok.mp h.valid
        refine Metadata.check_eq_ok.mpr ⟨fun field => ?_, fun hunbounded => ?_⟩
        · cases field
          · exact htexts .name
          · exact htexts .topic
          · exact htexts .description
        · cases hunbounded
      named := h.named
      below := fun _ => not_default_resignDefault }
  default hdefault := by
    rw [not_default_resignDefault] at hdefault
    cases hdefault

theorem tamed_edited (h : c.Edited c') : c.Tamed c' := by
  have hdefault : c'.info.flags.has .default = c.info.flags.has .default := h.has_eq (by decide)
  constructor
  · intro hsound
    exact
      { valid := h.valid hsound.valid
        named := h.id ▸ hsound.named
        below := by rw [h.parent, hdefault]; exact hsound.below }
  · rw [hdefault]
    exact fun h => h

theorem tamed_putRecord (record : Record) : c.Tamed (c.putRecord record) := by
  rw [putRecord_eq]
  exact tamed_of_same rfl rfl rfl

theorem tamed_receive (who : PlayerId) : c.Tamed (c.receive who) := by
  rw [receive_eq]
  exact tamed_of_same rfl rfl rfl

/-- Every turn is tame, except that of a new default channel. -/
theorem tamed_of_turn {way : Registry.Way} (h : Turn way c c') (hway : way ≠ .crown) :
    c.Tamed c' := by
  cases h with
  | release _ _ _ => exact tamed_of_same rfl rfl rfl
  | adopt _ _ => exact tamed_of_same rfl rfl rfl
  | rise _ _ => exact tamed_rise
  | sink _ parent hnot => exact tamed_sink parent hnot
  | crown _ _ => exact absurd rfl hway
  | resign _ => exact absurd rfl hway
  | edit edited => exact tamed_edited edited
  | setRights _ _ _ => exact tamed_putRecord _
  | forget _ _ => exact tamed_of_same rfl rfl rfl
  | receive _ who _ => exact tamed_receive who
  | dropMember _ _ => exact tamed_of_same rfl rfl rfl

/-- A top channel that becomes the default channel stays sound. -/
theorem sound_crown (h : c.Sound) (htop : c.parent = none) : c.crown.Sound where
  valid := Metadata.check_setFlags h.valid fun _ => Flags.has_union_self _ _
  named := h.named
  below hbelow := absurd htop hbelow

end Channel

namespace Registry

/-- Every channel is the image of a channel from before. -/
def Tame (registry registry' : Registry) : Prop :=
  ∀ id c', registry'.channels.get? id = some c' →
    ∃ c, registry.channels.get? id = some c ∧ c.Tamed c'

section Tame

variable {registry : Registry}

/-- A change of one channel is tame if its turn is. -/
theorem tame_withChange (id : ChannelId) (f : Channel → Channel)
    (hf : ∀ c, registry.channels.get? id = some c → (f c).id = c.id ∧ c.Tamed (f c)) :
    Tame registry (registry.withChange id f) := by
  intro id' c' hc'
  rw [get?_withChange _ _ fun c hc => (hf c hc).1] at hc'
  split at hc'
  · subst id'
    obtain ⟨c, hc, rfl⟩ := Option.map_eq_some_iff.mp hc'
    exact ⟨c, hc, (hf c hc).2⟩
  · exact ⟨c', hc', .refl c'⟩

theorem tame_of_change (hforest : Forest registry) {registry' : Registry} {way : Way}
    (hchange : Change registry way registry') (hadd : way ≠ .add) (hcrown : way ≠ .crown) :
    Tame registry registry' := by
  intro id c' hc'
  have hfate := fate_of_change hforest hchange id
  rw [hc'] at hfate
  obtain ⟨c, hc, hturns⟩ := hfate.before hadd
  exact ⟨c, hc, hturns.relates .refl (fun _ _ _ => .trans) fun _ _ hturn =>
    Channel.tamed_of_turn hturn hcrown⟩

end Tame

/-- What is kept of the channels of a registry, besides the forest. -/
structure Proper (registry : Registry) : Prop where
  sound : ∀ {id c}, registry.channels.get? id = some c → c.Sound
  /-- There is one default channel at most. -/
  single : ∀ {id id' c c'}, registry.channels.get? id = some c →
    registry.channels.get? id' = some c' →
    c.info.flags.has .default = true → c'.info.flags.has .default = true → id = id'

namespace Proper

variable {registry registry' : Registry}

theorem tame (h : Proper registry) (htame : Tame registry registry') : Proper registry' := by
  constructor
  · intro id c' hc'
    obtain ⟨c, hc, htamed⟩ := htame id c' hc'
    exact htamed.sound (h.sound hc)
  · intro id id' c d hc hd hdefault hdefault'
    obtain ⟨c₀, hc₀, htamed⟩ := htame id c hc
    obtain ⟨d₀, hd₀, htamed'⟩ := htame id' d hd
    exact h.single hc₀ hd₀ (htamed.default hdefault) (htamed'.default hdefault')

/-- In a registry without a default channel no channel at all has the flag. -/
theorem not_default (h : Proper registry) (hnone : ¬ registry.HasDefault) {id : ChannelId}
    {c : Channel} (hc : registry.channels.get? id = some c) :
    c.info.flags.has .default = false := by
  by_cases htop : c.parent = none
  · rw [Bool.eq_false_iff]
    exact fun hdefault => hnone ⟨c, Slots.mem_of_get? hc, htop, hdefault⟩
  · exact (h.sound hc).below htop

theorem withChannel (h : Proper registry) {id : ChannelId} {info : Metadata}
    (hadd : Admissible registry id info) : Proper (registry.withChannel id info) := by
  have hget {id' : ChannelId} {c : Channel}
      (hc : (registry.withChannel id info).channels.get? id' = some c) :
      registry.channels.get? id' = some c ∨ (id' = id ∧ c = { id, info }) := by
    rw [get?_withChannel hadd.free] at hc
    split at hc
    · exact .inr ⟨‹_›, (Option.some.inj hc).symm⟩
    · exact .inl hc
  constructor
  · intro id' c hc
    rcases hget hc with hold | ⟨-, rfl⟩
    · exact h.sound hold
    · exact ⟨hadd.valid, hadd.notReserved, fun hbelow => absurd rfl hbelow⟩
  · intro id₁ id₂ c d hc hd hdefault hdefault'
    have hnew {id' : ChannelId} {c : Channel} (hflag : info.flags.has .default = true)
        (hold : registry.channels.get? id' = some c) : c.info.flags.has .default = false :=
      h.not_default (hadd.single hflag) hold
    rcases hget hc with hold | ⟨rfl, rfl⟩ <;> rcases hget hd with hold' | ⟨rfl, rfl⟩
    · exact h.single hold hold' hdefault hdefault'
    · rw [hnew hdefault' hold] at hdefault
      cases hdefault
    · rw [hnew hdefault hold'] at hdefault'
      cases hdefault'
    · rfl

/-- The default flag goes to a top channel after every other channel has given it up. -/
theorem withCrown (h : Proper registry) {id : ChannelId} (htop : IsTop registry id)
    (hothers : ∀ id' c, registry.channels.get? id' = some c →
      c.info.flags.has .default = true → id' = id) :
    Proper (registry.withChange id Channel.crown) := by
  obtain ⟨c, hc, hparent⟩ := htop
  have hget := @get?_withChange registry id Channel.crown fun _ _ => rfl
  have honly {id' : ChannelId} {d : Channel}
      (hd : (registry.withChange id Channel.crown).channels.get? id' = some d)
      (hdefault : d.info.flags.has .default = true) : id' = id := by
    by_contra hne
    rw [hget, if_neg hne] at hd
    exact hne (hothers id' d hd hdefault)
  constructor
  · intro id' d hd
    rw [hget] at hd
    split at hd
    · subst id'
      rw [hc, Option.map_some] at hd
      cases hd
      exact Channel.sound_crown (h.sound hc) hparent
    · exact h.sound hd
  · intro id₁ id₂ d d' hd hd' hdefault hdefault'
    rw [honly hd hdefault, honly hd' hdefault']

theorem crown (h : Proper registry) (hids : registry.channels.ids.Nodup) {id : ChannelId}
    (htop : IsTop registry id) : Proper (registry.crown id) := by
  unfold Registry.crown
  cases hdefault : registry.defaultChannel with
  | error fault =>
      apply h.withCrown htop
      intro id' c hc hflag
      have hnone : ¬ registry.HasDefault := fun hsome => by
        obtain ⟨d, hd⟩ := exists_defaultChannel hsome
        rw [hd] at hdefault
        cases hdefault
      rw [h.not_default hnone hc] at hflag
      cases hflag
  | ok former =>
      obtain ⟨hmem, hformerTop, hformerFlag⟩ := defaultChannel_ok hdefault
      have hformer : registry.channels.get? former.id = some former := Slots.get?_of_mem hids hmem
      by_cases hid : former.id = id
      · simp only [hid, if_true]
        exact h
      · simp only [hid, if_false]
        have hget := @get?_withChange registry former.id Channel.resignDefault fun _ _ => rfl
        have hresigned : Proper (registry.withChange former.id Channel.resignDefault) :=
          h.tame (tame_withChange _ _ fun _ _ => ⟨rfl, Channel.tamed_resignDefault⟩)
        refine hresigned.withCrown ?_ fun id' c hc hflag => ?_
        · obtain ⟨c, hc, hparent⟩ := htop
          exact ⟨c, by rw [hget, if_neg (Ne.symm hid), hc], hparent⟩
        · rw [hget] at hc
          split at hc
          · obtain ⟨d, -, rfl⟩ := Option.map_eq_some_iff.mp hc
            rw [Channel.not_default_resignDefault] at hflag
            cases hflag
          · exact absurd (h.single hc hformer hflag hformerFlag) ‹_›

theorem change (h : Proper registry) (hforest : Forest registry) {way : Way}
    (hchange : Change registry way registry') : Proper registry' := by
  have htame (hadd : way ≠ .add) (hcrown : way ≠ .crown) : Proper registry' :=
    h.tame (tame_of_change hforest hchange hadd hcrown)
  cases hchange with
  | add hadd => exact h.withChannel hadd
  | crown htop => exact h.crown hforest.distinct htop
  | _ => exact htame (by decide) (by decide)

end Proper

/-! ## Limits -/

/-- The limits of a registry are kept. -/
structure Limited (registry : Registry) : Prop where
  capacity : registry.channels.capacity = registry.limits.channels
  room : registry.channels.entries.length ≤ registry.channels.capacity

theorem Limited.change {registry registry' : Registry} (h : Limited registry) {way : Way}
    (hchange : Change registry way registry') : Limited registry' := by
  obtain ⟨hcapacity, hroom⟩ := filled_channels.room hchange h.room
  exact ⟨by rw [hcapacity, hchange.limits_eq, h.capacity], hroom⟩

/-! ## Everything together -/

/-- What every reachable registry is. -/
structure Sound (registry : Registry) : Prop where
  forest : Forest registry
  proper : Proper registry
  limited : Limited registry

theorem Sound.change {registry registry' : Registry} (h : Sound registry) {way : Way}
    (hchange : Change registry way registry') : Sound registry' where
  forest := h.forest.change hchange
  proper := h.proper.change h.forest hchange
  limited := h.limited.change hchange

theorem Sound.empty (limits : Limits) : Sound (.empty limits) where
  forest := .empty limits
  proper := by constructor <;> simp [Registry.empty, Slots.get?]
  limited := ⟨rfl, Nat.zero_le _⟩

/-- Every reachable registry is sound. -/
theorem sound_of_reachable {store : Store} {limits : Limits} {session : Session}
    (h : Session.Reachable store limits session) : Sound session.registry :=
  Session.invariant_of_reachable (.empty limits) (fun _ _ _ h hchange => h.change hchange) h

end Registry

/-- What holds of every change of a sound registry, in one of the ways of an operation, holds of the
operation. -/
theorem Session.step_relates_of_sound {store : Store} {session : Session}
    {R : Registry → Registry → Prop} (hrefl : ∀ r, R r r)
    (htrans : ∀ r r' r'', R r r' → R r' r'' → R r r'') {operation : Operation}
    (hchange : ∀ r way r', Registry.Sound r → way ∈ operation.ways → Registry.Change r way r' →
      R r r') (hsound : Registry.Sound session.registry) :
    R session.registry (session.step store operation).2.registry := by
  have hboth : Registry.Sound session.registry →
      Registry.Sound (session.step store operation).2.registry ∧
        R session.registry (session.step store operation).2.registry :=
    step_relates (R := fun r r' => Registry.Sound r → Registry.Sound r' ∧ R r r')
      (fun r h => ⟨h, hrefl r⟩)
      (fun _ _ _ h h' hr => ⟨(h' (h hr).1).1, htrans _ _ _ (h hr).2 (h' (h hr).1).2⟩)
      fun r way r' hway hstep hr => ⟨hr.change hstep, hchange r way r' hr hway hstep⟩
  exact (hboth hsound).2

/-- What is kept by every change of a sound registry, in one of the ways of an operation, is kept by
the operation. -/
theorem Session.step_keeps_of_sound {store : Store} {session : Session} {P : Registry → Prop}
    {operation : Operation}
    (hchange : ∀ r way r', Registry.Sound r → way ∈ operation.ways → Registry.Change r way r' →
      P r → P r')
    (hsound : Registry.Sound session.registry) (h : P session.registry) :
    P (session.step store operation).2.registry :=
  step_relates_of_sound (R := fun r r' => P r → P r') (fun _ h => h)
    (fun _ _ _ h h' hr => h' (h hr)) hchange hsound h

end ChannelServer
