import ChannelServer.Proofs.Forest

/-!
# What becomes of a channel

A change of a registry is a change of one, two or three channels, or of many in the same manner.
`Channel.Turn` lists what a change in each way does to one channel, and `Fate` says what becomes of
the channel with a given id: nothing, some turns, or it is added or removed.

With this, whatever is about single channels is shown for the turns.  Which channels a change
touches, and in which order, is settled here once.

## Main results

* `fate_of_change`: what a change makes of the channel with a given id.
* `Turns.relates`: what holds of every turn holds of what becomes of a channel.
-/

namespace ChannelServer

open Registry (Way)

namespace Channel

/-- What a change does to one channel. -/
inductive Turn : Way → Channel → Channel → Prop where
  | release {way : Way} (c : Channel) (child : ChannelId) (h : way ∈ [.unlink, .graft]) :
      Turn way c (c.release child)
  | adopt (c : Channel) (child : ChannelId) : Turn .graft c (c.adopt child)
  | rise {way : Way} (c : Channel) (h : way ∈ [.unlink, .remove]) : Turn way c c.rise
  /-- A top channel that goes below a parent is not the default channel. -/
  | sink (c : Channel) (parent : ChannelId)
      (h : c.parent = none → c.info.flags.has .default = false) : Turn .graft c (c.sink parent)
  | crown (c : Channel) (h : c.parent = none) : Turn .crown c c.crown
  | resign (c : Channel) : Turn .crown c c.resignDefault
  | edit {c c' : Channel} (h : c.Edited c') : Turn .edit c c'
  | setRights (c : Channel) (identity : Identity) (rights : Rights) :
      Turn .setRights c (c.setRights identity rights)
  | forget (c : Channel) (who : PlayerId) : Turn .depart c (Registry.forget who c)
  /-- Who is not a member yet finds room, and the default channel always has it. -/
  | receive (c : Channel) (who : PlayerId) (h : who ∈ c.members ∨
      c.info.flags.has .default = true ∨ c.info.capacity.reachedBy c.members.length = false) :
      Turn .seat c (c.receive who)
  | dropMember (c : Channel) (who : PlayerId) : Turn .quit c (Registry.dropMember who c)

/-- What a change does to one channel, one turn after the other. -/
abbrev Turns (way : Way) : Channel → Channel → Prop := Relation.ReflTransGen (Turn way)

/-- What is reflexive and transitive and holds of every turn holds of a sequence of them. -/
theorem Turns.relates {R : Channel → Channel → Prop} {way : Way} {c c' : Channel}
    (hrefl : ∀ c, R c c) (htrans : ∀ c c' c'', R c c' → R c' c'' → R c c'')
    (hturn : ∀ c c', Turn way c c' → R c c') (h : Turns way c c') : R c c' := by
  induction h with
  | refl => exact hrefl _
  | tail _ hlast ih => exact htrans _ _ _ ih (hturn _ _ hlast)

/-- What every turn keeps is kept by a sequence of them. -/
theorem Turns.keeps {P : Channel → Prop} {way : Way} {c c' : Channel}
    (hturn : ∀ c c', Turn way c c' → P c → P c') (h : Turns way c c') (hc : P c) : P c' :=
  h.relates (R := fun c c' => P c → P c') (fun _ h => h) (fun _ _ _ h h' hc => h' (h hc)) hturn hc

/-- What is the same after every turn is the same after a sequence of them. -/
theorem Turns.same {α : Type} {f : Channel → α} {way : Way} {c c' : Channel}
    (hturn : ∀ c c', Turn way c c' → f c' = f c) (h : Turns way c c') : f c' = f c :=
  h.relates (R := fun c c' => f c' = f c) (fun _ => rfl) (fun _ _ _ h h' => h'.trans h) hturn

end Channel

namespace Registry

/-- What a change makes of the channel with some id, if there is one before and if there is one
afterwards. -/
inductive Fate : Way → Option Channel → Option Channel → Prop where
  | missing {way : Way} : Fate way none none
  | turned {way : Way} {c c' : Channel} (h : Channel.Turns way c c') : Fate way (some c) (some c')
  | added {id : ChannelId} {info : Metadata} : Fate .add none (some { id, info })
  | removed {c : Channel} : Fate .remove (some c) none

namespace Fate

variable {way : Way}

theorem refl : ∀ found : Option Channel, Fate way found found
  | none => .missing
  | some _ => .turned .refl

/-- A change of whatever is found. -/
theorem map {found : Option Channel} {f : Channel → Channel}
    (h : ∀ c, found = some c → Channel.Turns way c (f c)) : Fate way found (found.map f) := by
  cases found with
  | none => exact .missing
  | some c => exact .turned (h c rfl)

/-- What is there afterwards and was not added was there before. -/
theorem before {found : Option Channel} {c' : Channel} (h : Fate way found (some c'))
    (hway : way ≠ .add) : ∃ c, found = some c ∧ Channel.Turns way c c' := by
  cases h with
  | turned h => exact ⟨_, rfl, h⟩
  | added => exact absurd rfl hway

/-- What was there before and is not removed is there afterwards. -/
theorem after {found' : Option Channel} {c : Channel} (h : Fate way (some c) found')
    (hway : way ≠ .remove) : ∃ c', found' = some c' ∧ Channel.Turns way c c' := by
  cases h with
  | turned h => exact ⟨_, rfl, h⟩
  | removed => exact absurd rfl hway

end Fate

section Changes

variable {registry registry' : Registry}

theorem fate_withChange {way : Way} {id : ChannelId} {f : Channel → Channel}
    (hf : ∀ c, registry.channels.get? id = some c → (f c).id = c.id ∧ Channel.Turns way c (f c))
    (id' : ChannelId) :
    Fate way (registry.channels.get? id') ((registry.withChange id f).channels.get? id') := by
  rw [get?_withChange _ _ fun c hc => (hf c hc).1]
  split
  · subst id'
    exact .map fun c hc => (hf c hc).2
  · exact .refl _

theorem fate_unlink {parent child : ChannelId} (hne : parent ≠ child) (id : ChannelId) :
    Fate .unlink (registry.channels.get? id)
      ((registry.unlink parent child).channels.get? id) := by
  rw [get?_unlink _ hne]
  split
  · exact .map fun c _ => .single (.rise c (by simp))
  · split
    · exact .map fun c _ => .single (.release c child (by simp))
    · exact .refl _

/-- The child goes from its former parent, which releases it, to the new one, which adopts it.  Both
may be the same. -/
theorem fate_graft (hforest : Forest registry) {parent child : ChannelId} {p c : Channel}
    (hattach : Attachable registry parent child p c) (id : ChannelId) :
    Fate .graft (registry.channels.get? id) ((registry.graft parent child).channels.get? id) := by
  rw [graft, get?_link _ hattach.distinct]
  have hsink : Channel.Turns .graft c (c.sink parent) := .single (.sink c parent hattach.notDefault)
  have hadopt (d : Channel) : Channel.Turns .graft d (d.adopt child) := .single (.adopt d child)
  cases hparent : c.parent with
  | none =>
      rw [free_of_top hattach.childFound hparent]
      split
      · subst id
        rw [hattach.childFound]
        exact .turned hsink
      · split
        · exact .map fun d _ => hadopt d
        · exact .refl _
  | some former =>
      have hformer : former ≠ child := fun heq =>
        hforest.parent_ne_self hattach.childFound (heq ▸ hparent)
      have hrelease (d : Channel) : Channel.Turns .graft d (d.release child) :=
        .single (.release d child (by simp))
      rw [free_of_below hattach.childFound hparent, get?_unlink _ hformer]
      split
      · subst id
        rw [hattach.childFound]
        exact .turned hsink
      · split
        · split
          · rw [Option.map_map]
            exact .map fun d _ => (hrelease d).trans (hadopt _)
          · exact .map fun d _ => hadopt d
        · split
          · exact .map fun d _ => hrelease d
          · exact .refl _

theorem fate_remove (hids : registry.channels.ids.Nodup) (id : ChannelId) (c : Channel)
    (id' : ChannelId) :
    Fate .remove (registry.channels.get? id') ((registry.remove id c).channels.get? id') := by
  rw [get?_remove hids]
  split
  · cases registry.channels.get? id' with
    | none => exact .missing
    | some d => exact .removed
  · split
    · exact .map fun d _ => .single (.rise d (by simp))
    · exact .refl _

theorem fate_crown {id : ChannelId} (htop : IsTop registry id) (id' : ChannelId) :
    Fate .crown (registry.channels.get? id') ((registry.crown id).channels.get? id') := by
  obtain ⟨c, hc, hparent⟩ := htop
  have hcrown (d : Channel) (hd : registry.channels.get? id = some d) :
      Channel.Turns .crown d d.crown := by
    rw [hc] at hd
    cases hd
    exact .single (.crown c hparent)
  unfold crown
  split
  · rename_i former _
    split
    · exact .refl _
    · rename_i hne
      simp only
      rw [Slots.get?_modify _ _ _ Channel.crown fun _ => rfl,
        Slots.get?_modify _ _ _ Channel.resignDefault fun _ => rfl]
      split
      · subst id'
        rw [if_neg (Ne.symm hne)]
        exact .map hcrown
      · split
        · exact .map fun d _ => .single (.resign d)
        · exact .refl _
  · exact fate_withChange (f := Channel.crown) (fun d hd => ⟨rfl, hcrown d hd⟩) id'

/-- A channel that is not full has room or is the default channel. -/
theorem room_of_isFull {id : ChannelId} {c : Channel} (hfound : registry.channels.get? id = some c)
    (h : registry.isFull id = .ok false) :
    c.info.flags.has .default = true ∨ c.info.capacity.reachedBy c.members.length = false := by
  have hfull {flags : Flags} (hflags : registry.effectiveFlags id = .ok flags) :
      flags.has .default = true ∨ c.info.capacity.reachedBy c.members.length = false := by
    simp only [isFull, hflags, channel_eq_ok.mpr hfound, bind, Except.bind, pure, Except.pure,
      Except.ok.injEq, Bool.and_eq_false_iff, Bool.not_eq_false'] at h
    exact h
  cases hparent : c.parent with
  | none => exact hfull (effectiveFlags_of_top hfound hparent)
  | some parent =>
      cases hp : registry.channels.get? parent with
      | none =>
          simp [isFull, effectiveFlags, channel_eq_ok.mpr hfound, hparent, channel_eq_error hp,
            bind, Except.bind] at h
      | some p =>
          -- Below a parent the default flag is not inherited.
          refine .inr ((hfull (effectiveFlags_of_below hfound hparent hp)).resolve_left ?_)
          rw [Flags.not_has_without _ (by decide) (by decide)]
          exact Bool.false_ne_true

theorem fate_seat {target : ChannelId} {who : PlayerId} {c : Channel} {p : Player}
    (h : Seatable registry target who c p) (id : ChannelId) :
    Fate .seat (registry.channels.get? id) ((registry.seat target who).channels.get? id) := by
  refine fate_withChange (f := Channel.receive who) (fun d hd => ?_) id
  rw [h.found] at hd
  cases hd
  have hroom := h.room.imp_right (room_of_isFull h.found)
  exact ⟨(Forest.node_receive who c).1, .single (.receive c who hroom)⟩

theorem fate_unseat (who : PlayerId) (p : Player) (id : ChannelId) :
    Fate .quit (registry.channels.get? id) ((registry.unseat who p).channels.get? id) := by
  unfold unseat
  split
  · exact fate_withChange (f := dropMember who) (fun d _ => ⟨rfl, .single (.dropMember d who)⟩) id
  · exact .refl _

/-- What becomes of the channel with a given id when a registry changes. -/
theorem fate_of_change (hforest : Forest registry) {way : Way}
    (hchange : Change registry way registry') (id : ChannelId) :
    Fate way (registry.channels.get? id) (registry'.channels.get? id) := by
  cases hchange with
  | add hadd =>
      rw [get?_withChannel hadd.free]
      split
      · subst id
        rw [hadd.free]
        exact .added
      · exact .refl _
  | unlink hdetach =>
      obtain ⟨c, hc, hparent, -⟩ := hdetach
      refine fate_unlink (fun heq => ?_) id
      subst heq
      exact hforest.parent_ne_self hc hparent
  | graft hattach => exact fate_graft hforest hattach id
  | remove found top => exact fate_remove hforest.distinct _ _ id
  | crown htop => exact fate_crown htop id
  | edit found edited =>
      refine fate_withChange (fun c hc => ?_) id
      rw [found] at hc
      cases hc
      exact ⟨edited.id, .single (.edit edited)⟩
  | setRights _ _ _ =>
      exact fate_withChange (fun c _ =>
        ⟨Channel.id_setRights _ _, .single (.setRights c _ _)⟩) id
  | arrive _ _ _ => exact .refl _
  | depart _ =>
      rw [get?_withoutPlayer]
      exact .map fun c _ => .single (.forget c _)
  | seat h => exact fate_seat h id
  | quit _ => exact fate_unseat _ _ id
  | ban _ _ => exact .refl _
  | unban => exact .refl _

end Changes

end Registry

end ChannelServer
