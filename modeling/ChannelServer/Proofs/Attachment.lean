import ChannelServer.Proofs.Default
import ChannelServer.Proofs.Ledger.Recorded

/-!
# Attaching and detaching

A channel is attached by its own id and that of its new parent, and both ends of the link are
written down, so three channels change: the child, the parent, and the parent that the child had
before.  The last two may be the same channel, and then the child goes to the end of its list.

Whether a channel takes subchannels is read off its effective flags.  A subchannel does not inherit
the flag, so this asks for a top channel with the flag and for nothing else.

## Main results

* `graft_eq_withAttached`: what attaching leaves, said of every channel at once.
* `Sound.attachable_iff`: when a channel can be attached.
* `unlink_withAttached`: a top channel that is attached and detached again loses its records only.
* `attachment_of_reachable`: what attaching and detaching do in every reachable session.
-/

namespace ChannelServer

namespace Registry

variable {registry : Registry}

/-! ## Attaching -/

/-- The registry with a channel below a parent.  It has no records, is off the list of its former
parent and at the end of the list of the new one. -/
def withAttached (parent child : ChannelId) (former : Option ChannelId) (registry : Registry) :
    Registry :=
  { registry with
    channels := registry.channels.map fun c =>
      if c.id = child then { c with parent := some parent, records := [] }
      else
        let others :=
          if former = some c.id then c.subchannels.filter (· ≠ child) else c.subchannels
        { c with subchannels := if c.id = parent then others ++ [child] else others } }

theorem get?_withAttached {child : ChannelId} {c : Channel}
    (hc : registry.channels.get? child = some c) (parent : ChannelId)
    (former : Option ChannelId) :
    (registry.withAttached parent child former).channels.get? child =
      some { c with parent := some parent, records := [] } := by
  have hid : c.id = child := Slots.id_of_get? hc
  rw [withAttached, Slots.get?_map _ _ _ fun d => ?_, hc, Option.map_some, if_pos hid]
  split <;> rfl

theorem graft_eq_withAttached (hforest : Forest registry) {parent child : ChannelId} {c : Channel}
    (hc : registry.channels.get? child = some c) (hne : parent ≠ child) :
    registry.graft parent child = registry.withAttached parent child c.parent := by
  rw [graft, link_eq_map (hforest.free child).distinct hne, hforest.free_eq_map hc, withAttached]
  simp only [Slots.map_map]
  congr 1
  refine Slots.map_congr fun d _ => ?_
  by_cases hchild : d.id = child
  · simp [hchild, hne.symm, Channel.rise, Channel.sink]
  · by_cases hparent : d.id = parent
    · subst parent
      by_cases hformer : c.parent = some d.id <;>
        simp [hformer, hchild, Channel.release, Channel.adopt]
    · by_cases hformer : c.parent = some d.id <;>
        simp [hformer, hparent, hchild, Channel.release]

/-- The parent is a top channel with the flag for subchannels, and the child is another channel,
without subchannels and not the default channel. -/
theorem Sound.attachable_iff (h : Sound registry) {parent child : ChannelId} :
    (∃ p c, registry.channels.get? parent = some p ∧ registry.channels.get? child = some c ∧
      p.parent = none ∧ p.info.flags.has .subchannels = true ∧ parent ≠ child ∧
      c.subchannels = [] ∧ registry.defaultChannel ≠ .ok c) ↔
        ∃ p c, Attachable registry parent child p c := by
  constructor
  · rintro ⟨p, c, hp, hc, htop, htakes, hne, hchildless, hdefault⟩
    refine ⟨p, c, hp, hc, htop, htakes, hne, hchildless, fun _ => ?_, h.forest.parentFound hc⟩
    rw [Bool.eq_false_iff]
    exact fun hflag => hdefault (h.defaultChannel_eq (Slots.mem_of_get? hc) hflag).2
  · rintro ⟨p, c, hp, hc, htop, htakes, hne, hchildless, hnot, -⟩
    refine ⟨p, c, hp, hc, htop, htakes, hne, hchildless, fun hdefault => ?_⟩
    obtain ⟨-, hctop, hflag⟩ := defaultChannel_ok hdefault
    rw [hnot hctop] at hflag
    cases hflag

/-! ## Attaching once more, and detaching -/

/-- The registry with a channel moved to the end of the list of its parent. -/
def withLast (parent child : ChannelId) (registry : Registry) : Registry :=
  { registry with
    channels := registry.channels.map fun c =>
      if c.id = parent then
        { c with subchannels := c.subchannels.filter (· ≠ child) ++ [child] }
      else c }

/-- The registry without the records of a channel. -/
def withoutRecords (id : ChannelId) (registry : Registry) : Registry :=
  { registry with
    channels := registry.channels.map fun c => if c.id = id then { c with records := [] } else c }

/-- A channel that is below its parent already has no records to lose. -/
theorem withAttached_same (hforest : Forest registry) (hrecorded : Recorded registry)
    {parent child : ChannelId} {c : Channel} (hc : registry.channels.get? child = some c)
    (hbelow : c.parent = some parent) :
    registry.withAttached parent child (some parent) = registry.withLast parent child := by
  have hrecords : c.records = [] := by
    by_contra hsome
    rw [← recordsOf_of_found hc] at hsome
    obtain ⟨c', hc', htop⟩ := hrecorded.top child hsome
    rw [hc] at hc'
    cases hc'
    rw [htop] at hbelow
    cases hbelow
  have hne : parent ≠ child := fun heq => hforest.parent_ne_self hc (heq ▸ hbelow)
  rw [withAttached, withLast]
  congr 1
  refine Slots.map_congr fun d hd => ?_
  by_cases hchild : d.id = child
  · have hsame : d = c := by
      have hfound : registry.channels.get? d.id = some d := Slots.get?_of_mem hforest.distinct hd
      rw [hchild, hc] at hfound
      exact (Option.some.inj hfound).symm
    rw [if_pos hchild, if_neg (hchild ▸ hne.symm), hsame, ← hbelow, ← hrecords]
  · by_cases hparent : d.id = parent
    · simp [hparent, hne]
    · simp [hchild, hparent, Ne.symm hparent]

/-- A top channel that is attached and detached again is where it was, without its records. -/
theorem unlink_withAttached (hforest : Forest registry) {parent child : ChannelId} {c : Channel}
    (hc : registry.channels.get? child = some c) (htop : c.parent = none) (hne : parent ≠ child) :
    (registry.withAttached parent child none).unlink parent child =
      registry.withoutRecords child := by
  have hids : (registry.withAttached parent child none).channels.ids.Nodup := by
    rw [← htop, ← graft_eq_withAttached hforest hc hne, graft, ids_link]
    exact (hforest.free child).distinct
  rw [unlink_eq_map hids hne, withAttached, withoutRecords]
  simp only [Slots.map_map]
  congr 1
  refine Slots.map_congr fun d hd => ?_
  have hfound : registry.channels.get? d.id = some d := Slots.get?_of_mem hforest.distinct hd
  by_cases hchild : d.id = child
  · have hparent : d.parent = none := by
      rw [hchild, hc] at hfound
      cases hfound
      exact htop
    simp [hchild, Channel.rise, hparent]
  · have hunlisted : child ∉ d.subchannels := hforest.unlisted_of_top hc htop hfound
    have hkept : d.subchannels.filter (fun other => !decide (other = child)) = d.subchannels :=
      List.filter_eq_self.mpr fun other hother => by
        have hother' : other ≠ child := fun heq => hunlisted (heq ▸ hother)
        simp [hother']
    by_cases hparent : d.id = parent
    · subst parent
      simp [hchild, Channel.release, hkept]
    · simp [hchild, hparent]

end Registry

namespace Session

variable {store : Store} {limits : Limits} {session : Session}

/-- In a reachable session a channel can be attached to a top channel with the flag for subchannels,
if it is another channel, without subchannels and not the default channel.  Attaching changes the
parent and the records of the child and the lists of the two parents.  Whoever is below the parent
already goes to the end of the list, and a top channel comes back by detaching, though not its
records. -/
theorem attachment_of_reachable (h : Reachable store limits session) (parent child : ChannelId) :
    let registry := session.registry
    let attached := session.step store (.attach parent child)
    (attached.1 = .ok .done ↔
      ∃ p c, registry.channels.get? parent = some p ∧ registry.channels.get? child = some c ∧
        p.parent = none ∧ p.info.flags.has .subchannels = true ∧ parent ≠ child ∧
        c.subchannels = [] ∧ registry.defaultChannel ≠ .ok c) ∧
    ∀ c, registry.channels.get? child = some c →
      (attached.1 = .ok .done →
        attached.2 = { session with registry := registry.withAttached parent child c.parent }) ∧
      (c.parent = some parent →
        attached = (.ok .done, { session with registry := registry.withLast parent child })) ∧
      (c.parent = none → attached.1 = .ok .done →
        attached.2.step store (.detach parent child) =
          (.ok .done, { session with registry := registry.withoutRecords child })) := by
  intro registry attached
  have hsound : Registry.Sound registry := Registry.sound_of_reachable h
  have hforest : Registry.Forest registry := hsound.forest
  have heffect := @Registry.attach_allOrNothing registry parent child
  have hdone : attached.1 = .ok .done ↔ _ := done_iff heffect rfl
  have hafter {c : Channel} (hc : registry.channels.get? child = some c)
      (hok : attached.1 = .ok .done) :
      attached.2 = { session with registry := registry.withAttached parent child c.parent } := by
    obtain ⟨p, c', hattachable⟩ := hdone.mp hok
    rw [← Registry.graft_eq_withAttached hforest hc hattachable.distinct]
    exact snd_step_of_done heffect rfl hok
  refine ⟨hdone.trans hsound.attachable_iff.symm, fun c hc => ⟨hafter hc, ?_, ?_⟩⟩
  · intro hbelow
    obtain ⟨p, hp, hlisted⟩ := (hforest.parent_iff hc parent).mp hbelow
    have hok : attached.1 = .ok .done := hdone.mpr ⟨p, c,
      { parentFound := hp
        childFound := hc
        parentTop := hforest.parent_top hc hbelow hp
        takesSubchannels := hforest.takesSubchannels hp (List.ne_nil_of_mem hlisted)
        distinct := fun heq => hforest.parent_ne_self hc (heq ▸ hbelow)
        childless := hforest.childless hc (by rw [hbelow]; nofun)
        notDefault := fun htop => by
          rw [hbelow] at htop
          cases htop
        formerFound := hforest.parentFound hc }⟩
    have hsame := Registry.withAttached_same hforest (Registry.recorded_of_reachable h) hc hbelow
    rw [← hsame, ← hbelow]
    exact Prod.ext hok (hafter hc hok)
  · intro htop hok
    obtain ⟨p, c', hattachable⟩ := hdone.mp hok
    have hleft := hafter hc hok
    rw [htop] at hleft
    have hsunk : attached.2.registry.channels.get? child =
        some { c with parent := some parent, records := [] } := by
      rw [hleft]
      exact Registry.get?_withAttached hc parent none
    have hfound := (Registry.forest_of_reachable (h.step (.attach parent child))).parentFound hsunk
    have hdetach := (@Registry.detach_allOrNothing _ parent child).ok ⟨_, hsunk, rfl, hfound⟩
    have hstep := @step_of_ok store attached.2 _ _ (fun _ => .done) (.detach parent child) () _
      hdetach rfl
    rw [hstep, hleft, Registry.unlink_withAttached hforest hc htop hattachable.distinct]

/-- A subchannel goes below another parent, or to the end of the list of its own.  A guest has a
voice in a channel, which is attached and detached, and has none then. -/
theorem attachment_of_voiced_channel :
    let upper : Metadata := { Metadata.preset with flags := .subchannels }
    let session := (start (.empty {})).run .none
      [.importBatch [⟨⟨1⟩, none, upper⟩, ⟨⟨2⟩, none, upper⟩, ⟨⟨3⟩, some ⟨1⟩, .preset⟩,
        ⟨⟨4⟩, none, .preset⟩], .addPlayer (.guest "a" "m") 1, .grant ⟨1⟩ ⟨4⟩ .voice]
    let attached := session.step .none (.attach ⟨1⟩ ⟨4⟩)
    (session.step .none (.attach ⟨2⟩ ⟨3⟩)).2 =
        { session with registry := session.registry.withAttached ⟨2⟩ ⟨3⟩ (some ⟨1⟩) } ∧
      session.step .none (.attach ⟨1⟩ ⟨3⟩) =
        (.ok .done, { session with registry := session.registry.withLast ⟨1⟩ ⟨3⟩ }) ∧
      attached.2.step .none (.detach ⟨1⟩ ⟨4⟩) =
        (.ok .done, { session with registry := session.registry.withoutRecords ⟨4⟩ }) := by
  intro upper session attached
  have hreachable : Reachable .none {} session := .step _ (.step _ (.step _ .start))
  let first : Channel := { id := ⟨1⟩, info := upper, subchannels := [⟨3⟩] }
  have hfirst : session.registry.channels.get? ⟨1⟩ = some first := by decide +kernel
  let second : Channel := { id := ⟨2⟩, info := upper }
  have hsecond : session.registry.channels.get? ⟨2⟩ = some second := by decide +kernel
  let lower : Channel := { id := ⟨3⟩, info := .preset, parent := some ⟨1⟩ }
  have hlower : session.registry.channels.get? ⟨3⟩ = some lower := by decide +kernel
  let voiced : Channel :=
    { id := ⟨4⟩, info := .preset, records := [⟨⟨4⟩, .unregistered ⟨1⟩, .voice⟩] }
  have hvoiced : session.registry.channels.get? ⟨4⟩ = some voiced := by decide +kernel
  have hdefault {c : Channel} : session.registry.defaultChannel ≠ .ok c := fun hsome => by
    have hnone : session.registry.defaultChannel.toOption = none := by decide +kernel
    rw [hsome] at hnone
    cases hnone
  obtain ⟨hmove, hmoved⟩ := attachment_of_reachable hreachable ⟨2⟩ ⟨3⟩
  obtain ⟨-, hagain⟩ := attachment_of_reachable hreachable ⟨1⟩ ⟨3⟩
  obtain ⟨hattach, hback⟩ := attachment_of_reachable hreachable ⟨1⟩ ⟨4⟩
  refine ⟨(hmoved lower hlower).1 (hmove.mpr ?_), (hagain lower hlower).2.1 rfl,
    (hback voiced hvoiced).2.2 rfl (hattach.mpr ?_)⟩
  · exact ⟨second, lower, hsecond, hlower, rfl, by decide, by decide, rfl, hdefault⟩
  · exact ⟨first, voiced, hfirst, hvoiced, rfl, by decide, by decide, rfl, hdefault⟩

end Session

end ChannelServer
