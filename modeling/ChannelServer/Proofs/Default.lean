import ChannelServer.Proofs.Import.Outcome

/-!
# The default channel

The default channel is where new players arrive, so the server relies on there being one and on
finding it.  A reachable registry has at most one channel with the default flag, also among the
subchannels, and `defaultChannel` finds it.  The flag stays with its channel unless it is moved, and
it is only lost with the channel.

The capacity follows the flag: no other channel is unbounded.  This is the last thing that metadata
could fail the check for, so a text is refused for what is in it and for nothing else.

## Main results

* `isDefault_step`: the default channel stays the default channel.
* `default_of_reachable`: what this means in every reachable session.
-/

namespace ChannelServer

namespace Channel

/-- A top channel with the default flag. -/
def IsDefault (c : Channel) : Prop := c.parent = none ∧ c.info.flags.has .default = true

/-- The default channel stays on top and keeps the flag, unless the flag is moved. -/
theorem IsDefault.turn {c c' : Channel} (hdefault : c.IsDefault) {way : Registry.Way}
    (h : Turn way c c') (hway : way ≠ .crown) : c'.IsDefault := by
  obtain ⟨htop, hflag⟩ := hdefault
  cases h with
  | rise _ _ => exact ⟨rfl, hflag⟩
  | sink _ parent hnot =>
      rw [hnot htop] at hflag
      cases hflag
  | crown _ _ => exact absurd rfl hway
  | resign _ => exact absurd rfl hway
  | edit edited => exact ⟨edited.parent.trans htop, (edited.has_eq (by decide)).trans hflag⟩
  | setRights _ _ _ =>
      rw [setRights_eq]
      exact ⟨htop, hflag⟩
  | receive _ _ _ =>
      rw [receive_eq]
      exact ⟨htop, hflag⟩
  | _ => exact ⟨htop, hflag⟩

end Channel

namespace Registry

variable {registry registry' : Registry}

/-- The channel with this id is a default channel. -/
def IsDefault (registry : Registry) (id : ChannelId) : Prop :=
  ∃ c, registry.channels.get? id = some c ∧ c.IsDefault

/-! ## Finding it -/

theorem isDefault_of_ok (hids : registry.channels.ids.Nodup) {d : Channel}
    (h : registry.defaultChannel = .ok d) : registry.IsDefault d.id := by
  obtain ⟨hmem, hdefault⟩ := defaultChannel_ok h
  exact ⟨d, Slots.get?_of_mem hids hmem, hdefault⟩

/-- Whichever channel has the default flag is on top and is what is found. -/
theorem Sound.defaultChannel_eq (h : Sound registry) {c : Channel}
    (hc : c ∈ registry.channels.entries) (hflag : c.info.flags.has .default = true) :
    c.parent = none ∧ registry.defaultChannel = .ok c := by
  have hfound : registry.channels.get? c.id = some c := Slots.get?_of_mem h.forest.distinct hc
  have htop : c.parent = none := by
    by_contra hbelow
    rw [(h.proper.sound hfound).below hbelow] at hflag
    cases hflag
  obtain ⟨d, hd⟩ := exists_defaultChannel ⟨c, hc, htop, hflag⟩
  obtain ⟨d', hd', -, hflag'⟩ := isDefault_of_ok h.forest.distinct hd
  have hid : d.id = c.id := h.proper.single hd' hfound hflag' hflag
  have hmem := (defaultChannel_ok hd).1
  have hsame : d = c := List.inj_on_of_nodup_map h.forest.distinct hmem hc hid
  exact ⟨htop, hsame ▸ hd⟩

theorem Sound.exists_defaultChannel (h : Sound registry) {id : ChannelId}
    (hdefault : registry.IsDefault id) : ∃ d, registry.defaultChannel = .ok d ∧ d.id = id := by
  obtain ⟨c, hc, -, hflag⟩ := hdefault
  exact ⟨c, (h.defaultChannel_eq (Slots.mem_of_get? hc) hflag).2, Slots.id_of_get? hc⟩

/-! ## Keeping it -/

namespace IsDefault

theorem change (hforest : Forest registry) {way : Way} (hchange : Change registry way registry')
    (hcrown : way ≠ .crown) (hremove : way ≠ .remove) {id : ChannelId}
    (h : registry.IsDefault id) : registry'.IsDefault id := by
  obtain ⟨c, hc, hdefault⟩ := h
  have hfate := fate_of_change hforest hchange id
  rw [hc] at hfate
  obtain ⟨c', hc', hturns⟩ := hfate.after hremove
  exact ⟨c', hc', hturns.keeps (fun _ _ hturn hc => hc.turn hturn hcrown) hdefault⟩

/-- To free a channel changes nothing about which channel is the default channel. -/
theorem free (hforest : Forest registry) (child : ChannelId) {id : ChannelId}
    (h : registry.IsDefault id) : (registry.free child).IsDefault id := by
  unfold Registry.free
  split
  · rename_i former hformer
    obtain ⟨c, hc, hbelow⟩ := Option.bind_eq_some_iff.mp hformer
    exact h.change hforest (.unlink ⟨c, hc, hbelow, hforest.parentFound hc⟩) (by decide) (by decide)
  · exact h

theorem remove (hids : registry.channels.ids.Nodup) {id other : ChannelId} (c : Channel)
    (hne : id ≠ other) (h : registry.IsDefault id) : (registry.remove other c).IsDefault id := by
  obtain ⟨d, hd, htop, hflag⟩ := h
  rw [IsDefault, get?_remove hids, if_neg hne]
  split
  · exact ⟨d.rise, by rw [hd, Option.map_some], rfl, hflag⟩
  · exact ⟨d, hd, htop, hflag⟩

/-- Destroying another channel. -/
theorem destroyChannel (hforest : Forest registry) {id other : ChannelId} (hne : id ≠ other)
    (h : registry.IsDefault id) : (leaves (destroyChannel other) registry).IsDefault id := by
  cases hfound : registry.channels.get? other with
  | none =>
      have hrefused : Refused (Registry.destroyChannel other) registry :=
        destroyChannel_refused fun ⟨c, hc, _⟩ => by
          rw [hfound] at hc
          cases hc
      rwa [hrefused.leaves_eq]
  | some c =>
      obtain ⟨freed, hfreed, -⟩ := get?_free_self hfound
      rw [leaves_of_ok (destroyChannel_ok hfound (hforest.parentFound hfound) hfreed)]
      exact (h.free hforest other).remove (hforest.free other).distinct freed hne

/-- An import adds subchannels and nothing else to the channels that are there. -/
theorem imported (entries : List Wire.Entry) {id : ChannelId} (h : registry.IsDefault id) :
    (registry.imported entries).IsDefault id := by
  obtain ⟨c, hc, hdefault⟩ := h
  exact ⟨_, get?_imported_of_found hc entries, hdefault⟩

end IsDefault

/-- A top channel that is made the default channel is the default channel. -/
theorem isDefault_crown (hids : registry.channels.ids.Nodup) {id : ChannelId}
    (htop : IsTop registry id) : (registry.crown id).IsDefault id := by
  obtain ⟨c, hc, hparent⟩ := htop
  have hflag : c.crown.info.flags.has .default = true := Flags.has_union_self _ _
  unfold crown
  cases hdefault : registry.defaultChannel with
  | error fault =>
      have hget := @get?_withChange registry id Channel.crown (fun _ _ => rfl) id
      rw [if_pos rfl, hc, Option.map_some] at hget
      exact ⟨c.crown, hget, hparent, hflag⟩
  | ok former =>
      by_cases hid : former.id = id
      · simp only [hid, if_true]
        exact hid ▸ isDefault_of_ok hids hdefault
      · simp only [hid, if_false]
        refine ⟨c.crown, ?_, hparent, hflag⟩
        rw [Slots.get?_modify _ _ _ Channel.crown fun _ => rfl,
          Slots.get?_modify _ _ _ Channel.resignDefault fun _ => rfl, if_pos rfl,
          if_neg (Ne.symm hid), hc, Option.map_some]

/-! ## Changing a text -/

theorem setText_of_missing {id : ChannelId} (h : registry.channels.get? id = none) (field : Field)
    (text : String) : setText id field text registry = .ok false registry := by
  simp only [setText, editChannel, bind_apply, get_apply, h, pure_apply]

theorem setText_of_found {id : ChannelId} {c : Channel} (h : registry.channels.get? id = some c)
    (field : Field) (text : String) :
    setText id field text registry =
      match (c.info.setText field text).check with
      | .ok _ => .ok true (registry.withChange id fun _ =>
          { c with info := c.info.setText field text })
      | .error fault => .error fault registry := by
  simp only [setText, editChannel, bind_apply, get_apply, h, ask_apply]
  cases (c.info.setText field text).check <;> rfl

end Registry

namespace Session

variable {store : Store} {limits : Limits} {session : Session}

open Registry (Sound IsDefault IsTop)

/-- The default channel stays the default channel, unless the flag is moved or it is destroyed. -/
theorem isDefault_step (store : Store) (hsound : Sound session.registry) {operation : Operation}
    {id : ChannelId} (hmove : ∀ other, operation ≠ .setDefault other)
    (hdestroy : operation ≠ .destroyChannel id)
    (h : session.registry.IsDefault id) :
    (session.step store operation).2.registry.IsDefault id := by
  have hkept (hways : ∀ way ∈ operation.ways, way ≠ .crown ∧ way ≠ .remove) :
      (session.step store operation).2.registry.IsDefault id :=
    step_keeps_of_sound (P := fun r => r.IsDefault id) (fun _ way _ hr hway hchange =>
      .change hr.forest hchange (hways way hway).1 (hways way hway).2) hsound h
  have himported (himport : operation.ways = Registry.importing) :
      (session.step store operation).2.registry.IsDefault id := by
    obtain ⟨entries, hentries⟩ := registry_step_import store hsound himport
    rw [hentries]
    exact h.imported entries
  cases operation with
  | setDefault other => exact absurd rfl (hmove other)
  | destroyChannel other =>
      rw [step_snd, Operation.perform, registry_leaves_onRegistry_bind]
      exact h.destroyChannel hsound.forest fun heq => hdestroy (by rw [heq])
  | importBatch entries => exact himported rfl
  | importStream stream => exact himported rfl
  | _ => exact hkept (by simp [Operation.ways])

/-- Making a top channel the default channel succeeds. -/
theorem step_setDefault {id : ChannelId} (htop : IsTop session.registry id) :
    session.step store (.setDefault id) =
      (.ok .done, { session with registry := session.registry.crown id }) := by
  rw [step_of_ok ((Registry.setDefault_allOrNothing id).ok htop) rfl]

/-- The default channel is not lost to anything but its own destruction. -/
theorem exists_isDefault_step (store : Store) (hsound : Sound session.registry)
    {operation : Operation} {id : ChannelId} (hdestroy : operation ≠ .destroyChannel id)
    (h : session.registry.IsDefault id) :
    ∃ id', (session.step store operation).2.registry.IsDefault id' := by
  by_cases hmove : ∃ other, operation = .setDefault other
  · obtain ⟨other, rfl⟩ := hmove
    by_cases htop : IsTop session.registry other
    · rw [step_setDefault htop]
      exact ⟨other, Registry.isDefault_crown hsound.forest.distinct htop⟩
    · have hrefused := (Registry.setDefault_allOrNothing other).error htop
      rw [step_snd, Operation.perform, registry_leaves_onRegistry_bind]
      rw [hrefused.leaves_eq]
      exact ⟨id, h⟩
  · exact ⟨id, isDefault_step store hsound (fun other heq => hmove ⟨other, heq⟩) hdestroy h⟩

/-- A text of a channel that is there is refused for a NUL byte in it and for nothing else. -/
theorem answer_setText (hsound : Sound session.registry) (id : ChannelId) (field : Field)
    (text : String) :
    (session.step store (.setText id field text)).1 =
      if session.registry.channels.contains id ∧ ¬ Metadata.Writable text then
        .error (.badArgument (.nulInField field))
      else .ok (.found (session.registry.channels.contains id)) := by
  simp only [step, Operation.perform, bind_apply, onRegistry_apply]
  cases hc : session.registry.channels.get? id with
  | none =>
      have hcontains : session.registry.channels.contains id = false := by
        rw [Slots.contains, hc]
        rfl
      rw [Registry.setText_of_missing hc, hcontains, if_neg fun h => Bool.false_ne_true h.1]
      rfl
  | some c =>
      have hcontains : session.registry.channels.contains id = true := by
        rw [Slots.contains, hc]
        rfl
      rw [Registry.setText_of_found hc,
        Metadata.check_setText (hsound.proper.sound hc).valid field text, hcontains]
      by_cases hwritable : Metadata.Writable text
      · rw [if_pos hwritable, if_neg fun h => h.2 hwritable]
        rfl
      · rw [if_neg hwritable, if_pos ⟨rfl, hwritable⟩]

/-- In a reachable session at most one channel has the default flag; it is a top channel and what
`defaultChannel` finds.  Only that channel may be unbounded, and the metadata of every channel is
valid, so a text is refused for a NUL byte in it and for nothing else.  The default channel is only
lost with the channel itself, and whichever top channel it is to be, it is that one alone. -/
theorem default_of_reachable (h : Reachable store limits session) :
    (∀ c ∈ session.registry.channels.entries, ∀ c' ∈ session.registry.channels.entries,
      c.info.flags.has .default = true → c'.info.flags.has .default = true → c = c') ∧
    (∀ c ∈ session.registry.channels.entries, c.info.flags.has .default = true →
      c.parent = none ∧ session.registry.defaultChannel = .ok c) ∧
    (∀ c ∈ session.registry.channels.entries, c.info.capacity = .unbounded →
      session.registry.defaultChannel = .ok c) ∧
    (∀ c ∈ session.registry.channels.entries, c.info.check = .ok ()) ∧
    (∀ id field text, (session.step store (.setText id field text)).1 =
      if session.registry.channels.contains id ∧ ¬ Metadata.Writable text then
        .error (.badArgument (.nulInField field))
      else .ok (.found (session.registry.channels.contains id))) ∧
    (∀ d operation, session.registry.defaultChannel = .ok d → operation ≠ .destroyChannel d.id →
      ∃ d', (session.step store operation).2.registry.defaultChannel = .ok d' ∧
        (d'.id = d.id ∨ ∃ id, operation = .setDefault id)) ∧
    ∀ id, IsTop session.registry id →
      let after := session.step store (.setDefault id)
      after.1 = .ok .done ∧ ∃ d, after.2.registry.defaultChannel = .ok d ∧ d.id = id ∧
        ∀ c ∈ after.2.registry.channels.entries, c.info.flags.has .default = true → c = d := by
  have hsound := Registry.sound_of_reachable h
  have hids := hsound.forest.distinct
  refine ⟨?_, fun c hc hflag => hsound.defaultChannel_eq hc hflag, ?_, ?_,
    answer_setText hsound, ?_, ?_⟩
  · intro c hc c' hc' hflag hflag'
    have hfound := (hsound.defaultChannel_eq hc hflag).2
    rw [(hsound.defaultChannel_eq hc' hflag').2] at hfound
    exact (Except.ok.inj hfound).symm
  · intro c hc hunbounded
    have hvalid := (hsound.proper.sound (Slots.get?_of_mem hids hc)).valid
    exact (hsound.defaultChannel_eq hc ((Metadata.check_eq_ok.mp hvalid).2 hunbounded)).2
  · exact fun c hc => (hsound.proper.sound (Slots.get?_of_mem hids hc)).valid
  · intro d operation hd hdestroy
    have hdefault := Registry.isDefault_of_ok hids hd
    have hafter := Registry.sound_of_reachable (h.step operation)
    by_cases hmove : ∃ id, operation = .setDefault id
    · obtain ⟨id, hid⟩ := exists_isDefault_step store hsound hdestroy hdefault
      obtain ⟨d', hd', -⟩ := hafter.exists_defaultChannel hid
      exact ⟨d', hd', .inr hmove⟩
    · have hstays := isDefault_step store hsound
        (fun other heq => hmove ⟨other, heq⟩) hdestroy hdefault
      obtain ⟨d', hd', hid⟩ := hafter.exists_defaultChannel hstays
      exact ⟨d', hd', .inl hid⟩
  · intro id htop after
    have hafter : Sound after.2.registry := Registry.sound_of_reachable (h.step (.setDefault id))
    have hstep : after = _ := step_setDefault htop
    have hdefault : after.2.registry.IsDefault id := by
      rw [hstep]
      exact Registry.isDefault_crown hids htop
    obtain ⟨d, hd, hid⟩ := hafter.exists_defaultChannel hdefault
    refine ⟨by rw [hstep], d, hd, hid, fun c hc hflag => ?_⟩
    have hfound := (hafter.defaultChannel_eq hc hflag).2
    rw [hd] at hfound
    exact (Except.ok.inj hfound).symm

/-- The default flag is moved from an unbounded channel to another one. -/
theorem default_after_move :
    let arrivals : Metadata := { Metadata.preset with flags := .default, capacity := .unbounded }
    let session := (start (.empty {})).run .none [.addChannel arrivals, .addChannel .preset]
    let after := session.step .none (.setDefault ⟨2⟩)
    after.1 = .ok .done ∧ ∃ d, after.2.registry.defaultChannel = .ok d ∧ d.id = ⟨2⟩ ∧
      ∀ c ∈ after.2.registry.channels.entries, c.info.flags.has .default = true → c = d := by
  intro arrivals session after
  have htop : IsTop session.registry ⟨2⟩ := ⟨{ id := ⟨2⟩, info := .preset }, by decide +kernel, rfl⟩
  exact (@default_of_reachable .none {} session (.step _ (.step _ .start))).2.2.2.2.2.2 ⟨2⟩ htop

end Session

end ChannelServer
