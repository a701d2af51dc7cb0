import ChannelServer.Proofs.Presence

/-!
# Destroying a channel

Three kinds of entities name a channel: its parent, its subchannels and the players in it.
Destroying the channel follows the ids that it has itself, upwards and downwards and to its members,
and passes over what it does not find there.  That nothing else names the channel is what the forest
and the notes of the players are for: what is left is the registry without the channel and without
any mention of it, and nothing else is different.

A player can be on the list of a channel without being there.  Such a player is looked at and left
alone.

## Main results

* `orphan_eq_map`, `vacate_eq_map`: the two loops, said of every channel and every player at once.
* `destroyChannel_eq_ok`: destroying a channel succeeds, and what it leaves.
* `destruction_of_reachable`: what this means in every reachable session.
-/

namespace ChannelServer

/-- The player, who is in no channel instead of this one. -/
def Player.evict (id : ChannelId) (p : Player) : Player :=
  if p.channel = some id then { p with channel := none } else p

theorem Player.id_evict (id : ChannelId) (p : Player) : (p.evict id).id = p.id := by
  unfold evict
  split <;> rfl

theorem Player.evict_of_ne {id : ChannelId} {p : Player} (h : p.channel ≠ some id) :
    p.evict id = p := if_neg h

/-- The channel after another one has gone.  If that one was above it, it is a top channel; if that
one was below it, it does not list it any more. -/
def Channel.bereave (id : ChannelId) (gone c : Channel) : Channel :=
  { c with
    parent := if c.id ∈ gone.subchannels then none else c.parent
    subchannels :=
      if gone.parent = some c.id then c.subchannels.filter (· ≠ id) else c.subchannels }

namespace Registry

variable {registry : Registry}

/-! ## The two loops -/

theorem orphan_eq_map {channels : Slots Channel} (hids : channels.ids.Nodup)
    (children : List ChannelId) :
    orphan children channels = channels.map fun c => if c.id ∈ children then c.rise else c :=
  Slots.foldl_modify_eq_map hids children Channel.rise (fun _ => rfl) fun _ => rfl

theorem vacate_eq_map {players : Slots Player} (hids : players.ids.Nodup) (id : ChannelId)
    (members : List PlayerId) :
    vacate id members players = players.map fun p => if p.id ∈ members then p.evict id else p := by
  refine Slots.foldl_modify_eq_map hids members (Player.evict id) (Player.id_evict id) fun p => ?_
  by_cases hplace : p.channel = some id <;> simp [Player.evict, hplace]

/-- Whoever is in the channel is on its list, so looking at the list is enough. -/
theorem Seated.vacate_members (h : Seated registry) {id : ChannelId} {c : Channel}
    (hc : registry.channels.get? id = some c) :
    vacate id c.members registry.players = registry.players.map (Player.evict id) := by
  rw [vacate_eq_map h.distinct]
  refine Slots.map_congr fun p hp => ?_
  by_cases hplace : p.channel = some id
  · obtain ⟨c', hc', hlisted⟩ := h.listed (Slots.get?_of_mem h.distinct hp) id hplace
    rw [hc] at hc'
    cases hc'
    exact if_pos hlisted
  · rw [Player.evict_of_ne hplace, ite_self]

/-! ## What is left -/

/-- The registry after a channel was destroyed, without the channel and without any mention of it. -/
def withoutChannel (id : ChannelId) (c : Channel) (registry : Registry) : Registry :=
  { registry with
    channels :=
      { registry.channels with
        entries := (registry.channels.entries.filter (·.id ≠ id)).map (Channel.bereave id c) }
    players := registry.players.map (Player.evict id) }

theorem withoutChannel_eq (hids : registry.channels.ids.Nodup) (id : ChannelId) (c : Channel) :
    registry.withoutChannel id c =
      { registry with
        channels := (registry.channels.erase id).map (Channel.bereave id c)
        players := registry.players.map (Player.evict id) } := by
  have hentries : (registry.channels.erase id).map (Channel.bereave id c) =
      { registry.channels with
        entries := (registry.channels.entries.filter (·.id ≠ id)).map (Channel.bereave id c) } := by
    rw [Slots.map, Slots.entries_erase hids]
    rfl
  rw [withoutChannel, hentries]

theorem get?_withoutChannel (hids : registry.channels.ids.Nodup) (id : ChannelId) (c : Channel)
    (id' : ChannelId) :
    (registry.withoutChannel id c).channels.get? id' =
      if id' = id then none else (registry.channels.get? id').map (Channel.bereave id c) := by
  rw [withoutChannel_eq hids, Slots.get?_map _ _ (Channel.bereave id c) fun _ => rfl,
    Slots.get?_erase hids]
  split <;> rfl

/-- Exactly one channel goes. -/
theorem size_withoutChannel (hids : registry.channels.ids.Nodup) {id : ChannelId} {c : Channel}
    (hc : registry.channels.get? id = some c) :
    (registry.withoutChannel id c).channels.size + 1 = registry.channels.size := by
  have hmem := Slots.mem_of_get? hc
  have hlength := List.length_eraseP_of_mem hmem (Slots.named_iff.mpr (Slots.id_of_get? hc))
  have hsome : 0 < registry.channels.entries.length := List.length_pos_of_mem hmem
  rw [withoutChannel_eq hids, Slots.size, Slots.map, List.length_map, Slots.erase, hlength]
  exact Nat.sub_add_cancel hsome

/-! ## Destroying -/

theorem free_eq (id : ChannelId) :
    registry.free id = { registry with channels := (registry.free id).channels } := by
  unfold free
  split <;> rfl

/-- A channel that is there is a top channel as soon as it is free, and that is all. -/
theorem get?_free_rise (hforest : Forest registry) {id : ChannelId} {c : Channel}
    (hc : registry.channels.get? id = some c) :
    (registry.free id).channels.get? id = some c.rise := by
  have hid : c.id = id := Slots.id_of_get? hc
  rw [hforest.free_eq_map hc, Slots.get?_map _ _ _ fun d => ?_, hc, Option.map_some, if_pos hid]
  split
  · rfl
  · split <;> rfl

theorem remove_free (hforest : Forest registry) (hseated : Seated registry) {id : ChannelId}
    {c : Channel} (hc : registry.channels.get? id = some c) :
    (registry.free id).remove id c.rise = registry.withoutChannel id c := by
  have hids : ((registry.free id).channels.erase id).ids.Nodup :=
    Slots.nodup_ids_erase (hforest.free id).distinct id
  have hchannels : orphan c.subchannels ((registry.free id).channels.erase id) =
      (registry.channels.erase id).map (Channel.bereave id c) := by
    rw [orphan_eq_map hids, hforest.free_eq_map hc]
    dsimp only
    rw [Slots.erase_map _ _ _ fun d => ?_, Slots.map_map]
    · refine Slots.map_congr fun d hd => ?_
      rw [Slots.entries_erase hforest.distinct, List.mem_filter] at hd
      have hother : d.id ≠ id := of_decide_eq_true hd.2
      by_cases hparent : c.parent = some d.id <;> by_cases hchild : d.id ∈ c.subchannels <;>
        simp [Channel.bereave, Channel.release, Channel.rise, hother, hparent, hchild]
    · split
      · rfl
      · split <;> rfl
  rw [free_eq, remove, withoutChannel_eq hforest.distinct, ← hchannels,
    ← hseated.vacate_members hc]
  rfl

/-- Destroying a channel that is there succeeds. -/
theorem destroyChannel_eq_ok (hforest : Forest registry) (hseated : Seated registry)
    {id : ChannelId} {c : Channel} (hc : registry.channels.get? id = some c) :
    destroyChannel id registry = .ok c.subchannels (registry.withoutChannel id c) := by
  rw [destroyChannel_ok hc (hforest.parentFound hc) (get?_free_rise hforest hc),
    remove_free hforest hseated hc]
  rfl

end Registry

namespace Session

variable {store : Store} {limits : Limits} {session : Session}

/-- In a reachable session a channel that is there is destroyed, and the answer is its subchannels:
the channels that name it as their parent.  The channel goes, its subchannels become top channels,
its parent does not list it any more, and the players in it are in no channel.  Everything else is
as it was; a subchannel keeps its members and records, and a player who is elsewhere stays there. -/
theorem destruction_of_reachable (h : Reachable store limits session) {id : ChannelId}
    {c : Channel} (hc : session.registry.channels.get? id = some c) :
    let registry := session.registry
    let destroyed := session.step store (.destroyChannel id)
    let after := destroyed.2.registry
    destroyed = (.ok (.channels c.subchannels),
      { session with registry := registry.withoutChannel id c }) ∧
    after.channels.size + 1 = registry.channels.size ∧
    c.subchannels.Nodup ∧
    (∀ child, child ∈ c.subchannels ↔
      ∃ d, registry.channels.get? child = some d ∧ d.parent = some id) ∧
    (∀ child d, registry.channels.get? child = some d → d.parent = some id →
      after.channels.get? child = some { d with parent := none }) ∧
    ∀ who p, registry.players.get? who = some p → p.channel ≠ some id →
      after.players.get? who = some p := by
  intro registry destroyed after
  have hforest : Registry.Forest registry := Registry.forest_of_reachable h
  have hseated : Registry.Seated registry := Registry.seated_of_reachable h
  have hdestroyed : destroyed = (.ok (.channels c.subchannels),
      { session with registry := registry.withoutChannel id c }) :=
    step_of_ok (Registry.destroyChannel_eq_ok hforest hseated hc) rfl
  have hafter : after = registry.withoutChannel id c := congrArg (·.2.registry) hdestroyed
  refine ⟨hdestroyed, ?_, hforest.nodup hc, fun _ => hforest.mem_subchannels_iff hc,
    fun child d hd hparent => ?_, fun who p hp hplace => ?_⟩
  · rw [hafter, Registry.size_withoutChannel hforest.distinct hc]
  · have hmem : child ∈ c.subchannels := (hforest.mem_subchannels_iff hc).mpr ⟨d, hd, hparent⟩
    have htop : c.parent = none := by
      by_contra hbelow
      rw [hforest.childless hc hbelow] at hmem
      cases hmem
    have hne : child ≠ id := fun heq => hforest.parent_ne_self hd (heq ▸ hparent)
    have hid : d.id = child := Slots.id_of_get? hd
    rw [hafter, Registry.get?_withoutChannel hforest.distinct, if_neg hne, hd, Option.map_some]
    simp [Channel.bereave, hid, hmem, htop]
  · rw [hafter, Registry.withoutChannel, Slots.get?_map _ _ _ (Player.id_evict id), hp,
      Option.map_some, Player.evict_of_ne hplace]

/-- A guest joins a channel and then another one, without leaving the first.  When the first is
destroyed, its subchannel becomes a top channel and the guest stays where the guest is. -/
theorem destruction_of_stale_guest :
    let upper : Metadata := { Metadata.preset with flags := .subchannels }
    let guest : Player := { Registry.arrival ⟨1⟩ (.guest "a" "m") 1 with channel := some ⟨2⟩ }
    let session := (start (.empty {})).run .none
      [.importBatch
        [⟨⟨1⟩, none, upper⟩, ⟨⟨2⟩, none, .preset⟩, ⟨⟨3⟩, some ⟨1⟩, .preset⟩],
        .addPlayer (.guest "a" "m") 1, .join ⟨1⟩ ⟨1⟩, .join ⟨2⟩ ⟨1⟩]
    let destroyed := session.step .none (.destroyChannel ⟨1⟩)
    destroyed.1 = .ok (.channels [⟨3⟩]) ∧
      destroyed.2.registry.channels.get? ⟨3⟩ = some { id := ⟨3⟩, info := .preset } ∧
      destroyed.2.registry.players.get? ⟨1⟩ = some guest := by
  intro upper guest session destroyed
  have hreachable : Reachable .none {} session := .step _ (.step _ (.step _ (.step _ .start)))
  let first : Channel := { id := ⟨1⟩, info := upper, subchannels := [⟨3⟩], members := [⟨1⟩] }
  have hfirst : session.registry.channels.get? ⟨1⟩ = some first := by decide +kernel
  let lower : Channel := { id := ⟨3⟩, info := .preset, parent := some ⟨1⟩ }
  have hlower : session.registry.channels.get? ⟨3⟩ = some lower := by decide +kernel
  have hguest : session.registry.players.get? ⟨1⟩ = some guest := by decide +kernel
  obtain ⟨hdestroyed, -, -, -, hchildren, hplayers⟩ := destruction_of_reachable hreachable hfirst
  exact ⟨congrArg Prod.fst hdestroyed, hchildren ⟨3⟩ lower hlower rfl,
    hplayers ⟨1⟩ guest hguest (by decide)⟩

end Session

end ChannelServer
