import ChannelServer.Proofs.Presence
import Mathlib.Algebra.GroupWithZero.Nat
import Mathlib.Data.List.Perm.Basic

/-!
# One channel for each player

A player notes one channel, but `join` does not take a player off the list of another one.  Whoever
lets nobody join from elsewhere, and uses `move` and `leave` for that, keeps the two together: on
the list of a channel are then exactly the players who note it.

One half of this holds without the rule, as `Seated` says.  For the other half it is enough to look
at `seat`, the only change that puts a player on a list.  A player who moves is first taken off the
list of before, so `move` is in order wherever the player comes from.

## Main results

* `Placed.change`, `Placed.seat`: what every change keeps, and the rule for `seat`.
* `Placed.step`: every operation that is in order keeps players in one channel.
* `whereabouts_of_reachable`: lists and notes agree if every operation was in order.
-/

namespace ChannelServer

namespace Registry

variable {registry registry' : Registry}

/-- Whoever is on the list of a channel notes this channel, and the other way round. -/
structure Placed (registry : Registry) : Prop where
  seated : Seated registry
  noted : ∀ {id c}, registry.channels.get? id = some c → ∀ who ∈ c.members,
    ∀ p, registry.players.get? who = some p → p.channel = some id

namespace Placed

theorem empty (limits : Limits) : Placed (.empty limits) where
  seated := .empty limits
  noted hc := by cases hc

/-! ## Changes -/

theorem noted_of_change (h : Placed registry) (hforest : Forest registry) {way : Way}
    (hchange : Change registry way registry')
    (hway : way ∈ [.unlink, .graft, .crown, .edit, .setRights, .ban, .unban]) {id : ChannelId}
    {c' : Channel} (hc' : registry'.channels.get? id = some c') :
    ∀ who ∈ c'.members, ∀ p, registry'.players.get? who = some p → p.channel = some id := by
  have hmembers := members_of_change hforest hchange hway id
  rw [hc', Option.map_some, eq_comm, Option.map_eq_some_iff] at hmembers
  obtain ⟨c, hc, heq⟩ := hmembers
  rw [players_of_change hchange hway, ← heq]
  exact h.noted hc

theorem noted_of_remove (h : Placed registry) (hids : registry.channels.ids.Nodup)
    {id id' : ChannelId} {c d' : Channel}
    (hd' : (registry.remove id c).channels.get? id' = some d') :
    ∀ who ∈ d'.members, ∀ p, (registry.remove id c).players.get? who = some p →
      p.channel = some id' := by
  intro who hwho p' hp'
  obtain ⟨hne, d, hd, heq⟩ := before_remove hids hd'
  obtain ⟨p, hp, rfl⟩ :=
    Option.map_eq_some_iff.mp ((get?_vacate id c.members registry.players who).symm.trans hp')
  have hplace := h.noted hd who (heq ▸ hwho) p hp
  have hstays : ¬ (who ∈ c.members ∧ p.channel = some id) := by
    rintro ⟨-, hhere⟩
    rw [hplace] at hhere
    exact hne (Option.some.inj hhere)
  rw [if_neg hstays]
  exact hplace

theorem noted_of_withPlayer (h : Placed registry) {player : Player} {id : ChannelId} {c : Channel}
    (hc : registry.channels.get? id = some c) :
    ∀ who ∈ c.members, ∀ p, (registry.withPlayer player).players.get? who = some p →
      p.channel = some id := by
  intro who hwho p hp
  obtain ⟨_, hold⟩ := h.seated.known hc who hwho
  rw [get?_withPlayer, hold, Option.some_or] at hp
  cases hp
  exact h.noted hc who hwho _ hold

theorem noted_of_withoutPlayer (h : Placed registry) {gone : PlayerId} {id : ChannelId}
    {c' : Channel} (hc' : (registry.withoutPlayer gone).channels.get? id = some c') :
    ∀ who ∈ c'.members, ∀ p, (registry.withoutPlayer gone).players.get? who = some p →
      p.channel = some id := by
  intro who hwho p hp
  rw [get?_withoutPlayer] at hc'
  obtain ⟨c, hc, rfl⟩ := Option.map_eq_some_iff.mp hc'
  have hplayer : (registry.withoutPlayer gone).players.get? who =
      if who = gone then none else registry.players.get? who :=
    Slots.get?_erase h.seated.distinct _ _
  rw [hplayer] at hp
  split at hp
  · cases hp
  · exact h.noted hc who (List.mem_of_mem_filter hwho) p hp

/-- Whoever quits is on no list afterwards. -/
theorem before_quit (h : Placed registry) {who : PlayerId} {p : Player}
    (hp : registry.players.get? who = some p) {id : ChannelId} {c' : Channel}
    (hc' : (registry.quit who p).channels.get? id = some c') :
    who ∉ c'.members ∧ ∃ c, registry.channels.get? id = some c ∧ c'.members ⊆ c.members := by
  have hchannels : (registry.quit who p).channels = (registry.unseat who p).channels := rfl
  rw [hchannels] at hc'
  by_cases hplace : p.channel = some id
  · simp only [unseat, hplace] at hc'
    rw [get?_withChange id (dropMember who) fun _ _ => rfl, if_pos rfl] at hc'
    obtain ⟨c, hc, rfl⟩ := Option.map_eq_some_iff.mp hc'
    refine ⟨fun hwho => ?_, c, hc, fun _ hother => List.mem_of_mem_filter hother⟩
    exact absurd rfl (of_decide_eq_true (List.mem_filter.mp hwho).2)
  · rw [get?_unseat hplace] at hc'
    exact ⟨fun hwho => hplace (h.noted hc' who hwho p hp), c', hc', fun _ hother => hother⟩

theorem noted_of_quit (h : Placed registry) {who : PlayerId} {p : Player}
    (hp : registry.players.get? who = some p) {id : ChannelId} {c' : Channel}
    (hc' : (registry.quit who p).channels.get? id = some c') :
    ∀ other ∈ c'.members, ∀ q, (registry.quit who p).players.get? other = some q →
      q.channel = some id := by
  intro other hother q hq
  obtain ⟨hgone, c, hc, hsubset⟩ := h.before_quit hp hc'
  have hne : other ≠ who := fun heq => hgone (heq ▸ hother)
  have hsame : registry.players.get? other = some q := by
    have hgoTo := get?_goTo who other none registry.players
    rw [if_neg hne] at hgoTo
    exact hgoTo.symm.trans hq
  exact h.noted hc other (hsubset hother) q hsame

/-- Every change but one keeps every player in one channel. -/
theorem change (h : Placed registry) (hforest : Forest registry) {way : Way}
    (hchange : Change registry way registry') (hseat : way ≠ .seat) : Placed registry' := by
  refine ⟨h.seated.change hforest hchange, fun {id c'} hc' => ?_⟩
  by_cases hway : way ∈ [.unlink, .graft, .crown, .edit, .setRights, .ban, .unban]
  · exact h.noted_of_change hforest hchange hway hc'
  · cases hchange with
    | add hadd =>
        rcases before_withChannel hadd.free hc' with hnone | hold
        · rw [hnone]
          exact fun _ hwho => absurd hwho List.not_mem_nil
        · exact h.noted hold
    | remove _ _ => exact h.noted_of_remove hforest.distinct hc'
    | arrive _ _ _ => exact h.noted_of_withPlayer hc'
    | depart _ => exact h.noted_of_withoutPlayer hc'
    | quit known => exact h.noted_of_quit known hc'
    | seat _ => exact absurd rfl hseat
    | _ => exact absurd (by decide) hway

/-- Whoever takes a seat must not come from another channel. -/
theorem seat (h : Placed registry) {target : ChannelId} {who : PlayerId} {c : Channel} {p : Player}
    (hseat : Seatable registry target who c p)
    (hfrom : p.channel = none ∨ p.channel = some target) : Placed (registry.seat target who) := by
  refine ⟨h.seated.seat hseat, fun {id d'} hd' other hother q hq => ?_⟩
  have hlists : (registry.seat target who).channels.get? id =
      if id = target then (registry.channels.get? id).map (Channel.receive who)
      else registry.channels.get? id :=
    get?_withChange target (Channel.receive who) (fun d _ => (Forest.node_receive who d).1) id
  have hnotes : (registry.seat target who).players.get? other =
      if other = who then (registry.players.get? other).map (Player.goTo (some target))
      else registry.players.get? other :=
    get?_goTo who other (some target) registry.players
  rw [hlists] at hd'
  rw [hnotes] at hq
  by_cases hother' : other = who
  · subst other
    rw [if_pos rfl, hseat.known, Option.map_some] at hq
    cases hq
    split at hd'
    · rename_i hid
      rw [hid]
      rfl
    · -- The player is on another list, and so comes from there.
      rename_i hne
      have hplace := h.noted hd' who hother p hseat.known
      rcases hfrom with hnowhere | hthere
      · rw [hplace] at hnowhere
        cases hnowhere
      · rw [hplace] at hthere
        exact absurd (Option.some.inj hthere) hne
  · rw [if_neg hother'] at hq
    split at hd'
    · obtain ⟨d, hd, rfl⟩ := Option.map_eq_some_iff.mp hd'
      have hold := (Channel.mem_receive.mp hother).resolve_right hother'
      exact h.noted hd other hold q hq
    · exact h.noted hd' other hother q hq

end Placed

/-! ## Operations -/

/-- Nobody joins a channel who is in another one. -/
def InTurn (registry : Registry) : Operation → Prop
  | .join target who =>
      ∀ p ∈ registry.players.get? who, p.channel = none ∨ p.channel = some target
  | _ => True

namespace Placed

variable {store : Store} {session : Session}

theorem step_join (h : Placed session.registry) {target : ChannelId} {who : PlayerId}
    (hturn : session.registry.InTurn (.join target who)) :
    Placed (session.step store (.join target who)).2.registry := by
  rcases (join_allOrNothing target who).cases with ⟨⟨c, p, hseat⟩, hok⟩ | ⟨-, fault, herror⟩
  · rw [Session.step_of_ok hok rfl]
    exact h.seat hseat (hturn p hseat.known)
  · rw [Session.step_of_error herror rfl]
    exact h

/-- Whoever moves quits before, and so may come from anywhere. -/
theorem step_move (h : Placed session.registry) (hforest : Forest session.registry)
    (who : PlayerId) (target : ChannelId) :
    Placed (session.step store (.move who target)).2.registry := by
  have hrefused (hnot : Refused (Registry.move who target) session.registry) :
      Placed (session.step store (.move who target)).2.registry := by
    obtain ⟨fault, herror⟩ := hnot
    rw [Session.step_of_error herror rfl]
    exact h
  cases hp : session.registry.players.get? who with
  | none => exact hrefused (move_refused (.inl hp))
  | some p =>
      cases hc : session.registry.channels.get? target with
      | none => exact hrefused (move_refused (.inr hc))
      | some c =>
          by_cases hthere : p.channel = some target
          · rw [Session.step_of_ok (move_of_there hp hc hthere) rfl]
            exact h
          · rcases (move_allOrNothing hp hc hthere).cases with ⟨hroom, hok⟩ | ⟨-, hnot⟩
            · rw [Session.step_of_ok hok rfl]
              have hquit := h.change hforest (.quit hp) (by decide)
              exact hquit.seat (seatable_quit hp hc hthere hroom) (.inl rfl)
            · exact hrefused hnot

/-- Every operation that is in order keeps every player in one channel. -/
theorem step (h : Placed session.registry) (hsound : Sound session.registry)
    {operation : Operation} (hturn : session.registry.InTurn operation) :
    Placed (session.step store operation).2.registry := by
  have hother (hways : .seat ∉ operation.ways) :
      Placed (session.step store operation).2.registry :=
    Session.step_keeps_of_sound
      (fun _ _ _ hr hway hchange hplaced =>
        hplaced.change hr.forest hchange fun heq => hways (heq ▸ hway)) hsound h
  cases operation with
  | join target who => exact h.step_join hturn
  | move who target => exact h.step_move hsound.forest who target
  | _ => exact hother (by simp [Operation.ways, importing])

end Placed

/-! ## What the lists say together -/

section Lists

variable (h : Placed registry) (hids : registry.channels.ids.Nodup)
  (honce : ListedOnce registry)
include h hids

theorem mem_members_iff {p : Player} {c : Channel} (hp : p ∈ registry.players.entries)
    (hc : c ∈ registry.channels.entries) : p.id ∈ c.members ↔ p.channel = some c.id := by
  have hp' := Slots.get?_of_mem h.seated.distinct hp
  have hc' := Slots.get?_of_mem hids hc
  constructor
  · exact fun hlisted => h.noted hc' p.id hlisted p hp'
  · intro hplace
    obtain ⟨d, hd, hlisted⟩ := h.seated.listed hp' c.id hplace
    cases hc'.symm.trans hd
    exact hlisted

/-- Nobody is on two lists. -/
theorem channel_unique {c c' : Channel} (hc : c ∈ registry.channels.entries)
    (hc' : c' ∈ registry.channels.entries) {who : PlayerId} (hwho : who ∈ c.members)
    (hwho' : who ∈ c'.members) : c = c' := by
  obtain ⟨p, hp⟩ := h.seated.known (Slots.get?_of_mem hids hc) who hwho
  have hplace := h.noted (Slots.get?_of_mem hids hc) who hwho p hp
  have hplace' := h.noted (Slots.get?_of_mem hids hc') who hwho' p hp
  rw [hplace] at hplace'
  exact List.inj_on_of_nodup_map hids hc hc' (Option.some.inj hplace')

include honce

/-- The lists together are the players with a channel. -/
theorem flatMap_members_perm : (registry.channels.entries.flatMap (·.members)).Perm
    ((registry.players.entries.filter (·.channel.isSome)).map (·.id)) := by
  have hlists : (registry.channels.entries.flatMap (·.members)).Nodup := by
    refine List.nodup_flatMap.mpr ⟨fun c hc => honce c.id c (Slots.get?_of_mem hids hc), ?_⟩
    refine (List.pairwise_map.mp hids).imp_of_mem fun {c c'} hc hc' hne => ?_
    exact fun who hwho hwho' => hne (congrArg _ (channel_unique h hids hc hc' hwho hwho'))
  have hplayers : ((registry.players.entries.filter (·.channel.isSome)).map (·.id)).Nodup :=
    (List.filter_sublist.map _).nodup h.seated.distinct
  refine (List.perm_ext_iff_of_nodup hlists hplayers).mpr fun who => ?_
  rw [List.mem_flatMap, List.mem_map]
  constructor
  · rintro ⟨c, hc, hwho⟩
    obtain ⟨p, hp⟩ := h.seated.known (Slots.get?_of_mem hids hc) who hwho
    have hplace := h.noted (Slots.get?_of_mem hids hc) who hwho p hp
    refine ⟨p, List.mem_filter.mpr ⟨Slots.mem_of_get? hp, ?_⟩, Slots.id_of_get? hp⟩
    rw [hplace]
    rfl
  · rintro ⟨p, hp, rfl⟩
    obtain ⟨hmem, hsome⟩ := List.mem_filter.mp hp
    obtain ⟨id, hplace⟩ := Option.isSome_iff_exists.mp hsome
    obtain ⟨c, hc, hlisted⟩ :=
      h.seated.listed (Slots.get?_of_mem h.seated.distinct hmem) id hplace
    exact ⟨c, Slots.mem_of_get? hc, hlisted⟩

end Lists

end Registry

namespace Session

variable {store : Store} {limits : Limits} {session : Session}

/-- The sessions that operations lead to, starting with an empty registry, if nobody ever joins a
channel who is in another one. -/
inductive ReachableInTurn (store : Store) (limits : Limits) : Session → Prop where
  | start : ReachableInTurn store limits (start (.empty limits))
  | step {session : Session} {operation : Operation} :
      ReachableInTurn store limits session → session.registry.InTurn operation →
        ReachableInTurn store limits (session.step store operation).2

theorem ReachableInTurn.reachable (h : ReachableInTurn store limits session) :
    Reachable store limits session := by
  induction h with
  | start => exact .start
  | step _ _ ih => exact ih.step _

theorem ReachableInTurn.placed (h : ReachableInTurn store limits session) :
    Registry.Placed session.registry := by
  induction h with
  | start => exact .empty limits
  | step hbefore hturn ih =>
      exact ih.step (Registry.sound_of_reachable hbefore.reachable) hturn

/-- If nobody ever joins a channel from another one, a channel lists exactly the players who note
it, each of them once.  So nobody is in two channels, and the channels together have as many members
as there are players in channels. -/
theorem whereabouts_of_reachable (h : ReachableInTurn store limits session) :
    (∀ p ∈ session.registry.players.entries, ∀ c ∈ session.registry.channels.entries,
      (p.id ∈ c.members ↔ p.channel = some c.id) ∧
        c.members.count p.id = if p.channel = some c.id then 1 else 0) ∧
      (∀ c ∈ session.registry.channels.entries, ∀ c' ∈ session.registry.channels.entries,
        ∀ who ∈ c.members, who ∈ c'.members → c = c') ∧
      (session.registry.channels.entries.map (·.members.length)).sum =
        (session.registry.players.entries.filter (·.channel.isSome)).length := by
  have hplaced := h.placed
  have hids := (Registry.forest_of_reachable h.reachable).distinct
  have honce := Registry.listedOnce_of_reachable h.reachable
  refine ⟨fun p hp c hc => ?_, fun c hc c' hc' who => ?_, ?_⟩
  · have hiff := Registry.mem_members_iff hplaced hids hp hc
    refine ⟨hiff, ?_⟩
    rw [(honce c.id c (Slots.get?_of_mem hids hc)).count]
    simp only [hiff]
  · exact Registry.channel_unique hplaced hids hc hc'
  · have hlength := (Registry.flatMap_members_perm hplaced hids honce).length_eq
    rwa [List.length_flatMap, List.length_map] at hlength

/-- A guest joins a channel, moves to another one and joins it once more.  The first channel is
destroyed, and the next one gets its id, but not its member. -/
theorem whereabouts_of_moved_guest :
    let session := (start (.empty {})).run .none
      [.addChannel .preset, .addChannel .preset, .addPlayer (.guest "a" "m") 1, .join ⟨1⟩ ⟨1⟩,
        .move ⟨1⟩ ⟨2⟩, .join ⟨2⟩ ⟨1⟩, .destroyChannel ⟨1⟩, .addChannel .preset]
    session.registry.channels.entries.map (fun c => (c.id, c.members)) =
        [(⟨2⟩, [⟨1⟩]), (⟨1⟩, [])] ∧
      (session.registry.channels.entries.map (·.members.length)).sum =
        (session.registry.players.entries.filter (·.channel.isSome)).length := by
  intro session
  let arrived := (start (.empty {})).run .none
    [.addChannel .preset, .addChannel .preset, .addPlayer (.guest "a" "m") 1]
  let moved := arrived.run .none [.join ⟨1⟩ ⟨1⟩, .move ⟨1⟩ ⟨2⟩]
  have hjoin : ∀ p ∈ arrived.registry.players.get? ⟨1⟩,
      p.channel = none ∨ p.channel = some ⟨1⟩ := by decide +kernel
  have hagain : ∀ p ∈ moved.registry.players.get? ⟨1⟩,
      p.channel = none ∨ p.channel = some ⟨2⟩ := by decide +kernel
  have harrived : ReachableInTurn .none {} arrived :=
    .step (.step (.step .start trivial) trivial) trivial
  have hmoved : ReachableInTurn .none {} moved := .step (.step harrived hjoin) trivial
  have hreachable : ReachableInTurn .none {} session :=
    .step (.step (.step hmoved hagain) trivial) trivial
  exact ⟨by decide +kernel, (whereabouts_of_reachable hreachable).2.2⟩

end Session

end ChannelServer
