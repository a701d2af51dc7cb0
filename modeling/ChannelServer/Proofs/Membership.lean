import ChannelServer.Proofs.Default
import ChannelServer.Proofs.Presence

/-!
# Joining and moving

Whether a channel takes somebody new is decided by the channel alone: it is the default channel, or
it has fewer members than its limit.  Flags are inherited, but not the default flag, so below the
default channel nothing is different.

Moving looks at the new channel, takes the player off the list of the old one and then joins.
Joining looks at the new channel again.  What was done in between is none of its business: the list
that changed belongs to another channel, and the default flag is where it was.

## Main results

* `Sound.exists_isFull`: which channels are full.
* `Sound.join_effect`, `Sound.move_effect`: when joining and moving succeed, and what they leave.
* `membership_of_reachable`: what this means in every reachable session.
-/

namespace ChannelServer

theorem Capacity.reachedBy_iff {capacity : Capacity} {count : Nat} :
    capacity.reachedBy count = true ↔ ∃ max, capacity = .limited max ∧ max.toNat ≤ count := by
  cases capacity with
  | limited max => simp [reachedBy]
  | unbounded => simp [reachedBy]

namespace Registry

variable {registry : Registry}

/-! ## Full channels -/

/-- The channel takes nobody new: it is not the default channel, and it has as many members as its
limit or more. -/
def Full (registry : Registry) (c : Channel) : Prop :=
  registry.defaultChannel ≠ .ok c ∧
    ∃ max, c.info.capacity = .limited max ∧ max.toNat ≤ c.members.length

/-- The default flag counts for the default channel and for no other, whatever it inherits. -/
theorem Sound.effectiveFlags_default_iff (h : Sound registry) {id : ChannelId} {c : Channel}
    {flags : Flags} (hc : registry.channels.get? id = some c)
    (hflags : registry.effectiveFlags id = .ok flags) :
    flags.has .default = true ↔ registry.defaultChannel = .ok c := by
  cases hparent : c.parent with
  | none =>
      rw [effectiveFlags_of_top hc hparent] at hflags
      cases hflags
      exact ⟨fun hflag => (h.defaultChannel_eq (Slots.mem_of_get? hc) hflag).2,
        fun hdefault => (defaultChannel_ok hdefault).2.2⟩
  | some parent =>
      obtain ⟨p, hp⟩ := h.forest.parentFound hc parent hparent
      rw [effectiveFlags_of_below hc hparent hp] at hflags
      cases hflags
      refine iff_of_false ?_ fun hdefault => ?_
      · rw [Flags.not_has_without _ (by decide) (by decide)]
        exact Bool.false_ne_true
      · rw [(defaultChannel_ok hdefault).2.1] at hparent
        cases hparent

/-- Every channel that is there is full or not. -/
theorem Sound.exists_isFull (h : Sound registry) {id : ChannelId} {c : Channel}
    (hc : registry.channels.get? id = some c) :
    ∃ full, registry.isFull id = .ok full ∧ (full = true ↔ registry.Full c) := by
  obtain ⟨flags, hflags⟩ := h.forest.exists_effectiveFlags hc
  have hfull : registry.isFull id =
      .ok (!flags.has .default && c.info.capacity.reachedBy c.members.length) := by
    simp only [isFull, hflags, channel_eq_ok.mpr hc, bind, Except.bind, pure, Except.pure]
  refine ⟨_, hfull, ?_⟩
  rw [Bool.and_eq_true, Bool.not_eq_true', Bool.eq_false_iff, ne_eq,
    h.effectiveFlags_default_iff hc hflags, Capacity.reachedBy_iff, Full]

theorem Sound.isFull_eq_false_iff (h : Sound registry) {id : ChannelId} {c : Channel}
    (hc : registry.channels.get? id = some c) :
    registry.isFull id = .ok false ↔ ¬ registry.Full c := by
  obtain ⟨full, hfull, hiff⟩ := h.exists_isFull hc
  rw [hfull, ← hiff, Except.ok.injEq, Bool.not_eq_true]

/-! ## Joining -/

/-- The registry with a player in a channel: at the end of the list unless the player is on it, and
in the note of the player. -/
def withMember (target : ChannelId) (who : PlayerId) (registry : Registry) : Registry :=
  { registry with
    channels := registry.channels.map fun c =>
      if c.id = target ∧ who ∉ c.members then { c with members := c.members ++ [who] } else c
    players := registry.players.map fun p =>
      if p.id = who then { p with channel := some target } else p }

theorem seat_eq_withMember (hchannels : registry.channels.ids.Nodup)
    (hplayers : registry.players.ids.Nodup) (target : ChannelId) (who : PlayerId) :
    registry.seat target who = registry.withMember target who := by
  rw [seat, withMember, Slots.modify_eq_map hchannels, Slots.modify_eq_map hplayers]
  congr 1
  refine Slots.map_congr fun c _ => ?_
  by_cases hid : c.id = target
  · by_cases hmem : who ∈ c.members <;> simp [Identified.id, Channel.receive, hid, hmem]
  · simp [Identified.id, hid]

/-- Joining succeeds for whoever is on the list already, and else if the channel is not full. -/
theorem Sound.join_effect (h : Sound registry) (hseated : Seated registry) (target : ChannelId)
    (who : PlayerId) :
    AllOrNothing (join target who) registry
      (∃ p c, registry.players.get? who = some p ∧ registry.channels.get? target = some c ∧
        (who ∈ c.members ∨ ¬ registry.Full c))
      () (registry.withMember target who) := by
  refine (join_allOrNothing target who).congr ?_
    (seat_eq_withMember h.forest.distinct hseated.distinct target who).symm
  constructor
  · rintro ⟨p, c, hp, hc, hroom⟩
    exact ⟨c, p, hp, hc, hroom.imp_right (h.isFull_eq_false_iff hc).mpr⟩
  · rintro ⟨c, p, hp, hc, hroom⟩
    exact ⟨p, c, hp, hc, hroom.imp_right (h.isFull_eq_false_iff hc).mp⟩

/-! ## Moving -/

/-- The registry after a player went from one channel to another: off the list of the former
channel, on that of the target, and with the target in the note of the player. -/
def withMove (who : PlayerId) (former : Option ChannelId) (target : ChannelId)
    (registry : Registry) : Registry :=
  { registry with
    channels := registry.channels.map fun c =>
      if c.id = target then
        if who ∈ c.members then c else { c with members := c.members ++ [who] }
      else if former = some c.id then { c with members := c.members.filter (· ≠ who) }
      else c
    players := registry.players.map fun p =>
      if p.id = who then { p with channel := some target } else p }

theorem seat_quit_eq_withMove (hchannels : registry.channels.ids.Nodup)
    (hplayers : registry.players.ids.Nodup) {who : PlayerId} {target : ChannelId} {p : Player}
    (hne : p.channel ≠ some target) :
    (registry.quit who p).seat target who = registry.withMove who p.channel target := by
  have hnotes : (registry.players.modify who (Player.goTo none)).modify who
      (Player.goTo (some target)) =
        registry.players.map fun q => if q.id = who then { q with channel := some target } else q := by
    rw [Slots.modify_modify _ _ (Player.goTo none) _ fun _ => rfl, Slots.modify_eq_map hplayers]
    rfl
  have hlists : (registry.unseat who p).channels.modify target (Channel.receive who) =
      registry.channels.map fun c =>
        if c.id = target then c.receive who
        else if p.channel = some c.id then dropMember who c else c := by
    cases hformer : p.channel with
    | none =>
        simp only [unseat, hformer, Slots.modify_eq_map hchannels]
        exact Slots.map_congr fun c _ => by simp [Identified.id]
    | some former =>
        have hother : former ≠ target := fun heq => hne (heq ▸ hformer)
        have hboth := Slots.modify_modify_eq_map hchannels hother (dropMember who)
          (Channel.receive who) fun _ => rfl
        simp only [unseat, hformer, withChange, hboth, Identified.id, Option.some.injEq,
          @eq_comm _ former]
  have hframe : registry.unseat who p =
      { registry with channels := (registry.unseat who p).channels } := by
    unfold unseat
    split <;> rfl
  rw [seat, quit, hframe]
  simp only [hnotes, hlists, withMove, Channel.receive, dropMember]

theorem mem_members_withMove {who : PlayerId} {former : Option ChannelId} {target : ChannelId}
    {c : Channel} (hc : c ∈ (registry.withMove who former target).channels.entries)
    (hid : c.id = target) : who ∈ c.members := by
  obtain ⟨d, -, rfl⟩ := List.mem_map.mp hc
  by_cases htarget : d.id = target
  · by_cases hmem : who ∈ d.members
    · simpa only [if_pos htarget, if_pos hmem] using hmem
    · simp only [if_pos htarget, if_neg hmem, List.mem_append, List.mem_singleton, or_true]
  · refine absurd ?_ htarget
    rw [if_neg htarget] at hid
    split at hid <;> exact hid

/-- Moving succeeds for whoever is there already, and else if the channel is not full. -/
theorem Sound.move_effect (h : Sound registry) (hseated : Seated registry) {who : PlayerId}
    {p : Player} (hp : registry.players.get? who = some p) (target : ChannelId) :
    AllOrNothing (move who target) registry
      (∃ c, registry.channels.get? target = some c ∧
        (p.channel = some target ∨ ¬ registry.Full c))
      ()
      (if p.channel = some target then registry
        else registry.withMove who p.channel target) := by
  cases hc : registry.channels.get? target with
  | none => exact ⟨nofun, fun _ => move_refused (.inr hc)⟩
  | some c =>
      by_cases hthere : p.channel = some target
      · rw [if_pos hthere]
        exact ⟨fun _ => move_of_there hp hc hthere, fun hnot => absurd ⟨c, rfl, .inl hthere⟩ hnot⟩
      · rw [if_neg hthere]
        refine (move_allOrNothing hp hc hthere).congr ?_
          (seat_quit_eq_withMove h.forest.distinct hseated.distinct hthere).symm
        rw [h.isFull_eq_false_iff hc]
        constructor
        · rintro ⟨c', hc', hroom⟩
          cases hc'
          exact hroom.resolve_left hthere
        · exact fun hroom => ⟨c, rfl, .inr hroom⟩

/-- The second look at the channel finds what the first one found. -/
theorem Sound.join_of_unseat (h : Sound registry) (hseated : Seated registry) {who : PlayerId}
    {target : ChannelId} {p : Player} {c : Channel} (hp : registry.players.get? who = some p)
    (hc : registry.channels.get? target = some c) (hne : p.channel ≠ some target)
    (hroom : ¬ registry.Full c) :
    join target who (registry.unseat who p) = .ok () (registry.withMove who p.channel target) := by
  have hseat := seatable_unseat hp hc hne ((h.isFull_eq_false_iff hc).mpr hroom)
  rw [(join_allOrNothing target who).ok ⟨c, p, hseat⟩, seat_unseat,
    seat_quit_eq_withMove h.forest.distinct hseated.distinct hne]

end Registry

namespace Session

variable {store : Store} {limits : Limits} {session : Session}

/-- In a reachable session a channel is full if it is not the default channel and has as many
members as its limit or more.  Joining succeeds unless the channel is full and the player is not on
its list, and moving unless the channel is full and the player is not there.  Joining puts the
player on the list and changes no other list; moving takes the player off the list of the former
channel besides, and is over then: joining after that does not fail. -/
theorem membership_of_reachable (h : Reachable store limits session) (who : PlayerId)
    (target : ChannelId) :
    let registry := session.registry
    let joined := session.step store (.join target who)
    let moved := session.step store (.move who target)
    (∀ c, registry.channels.get? target = some c →
      ∃ full, registry.isFull target = .ok full ∧ (full = true ↔ registry.Full c)) ∧
    (joined.1 = .ok .done ↔
      ∃ p c, registry.players.get? who = some p ∧ registry.channels.get? target = some c ∧
        (who ∈ c.members ∨ ¬ registry.Full c)) ∧
    (joined.1 = .ok .done →
      joined.2 = { session with registry := registry.withMember target who }) ∧
    (moved.1 = .ok .done ↔
      ∃ p c, registry.players.get? who = some p ∧ registry.channels.get? target = some c ∧
        (p.channel = some target ∨ ¬ registry.Full c)) ∧
    ∀ p, registry.players.get? who = some p → moved.1 = .ok .done →
      (p.channel = some target → moved.2 = session) ∧
      (p.channel ≠ some target →
        moved.2 = { session with registry := registry.withMove who p.channel target } ∧
        (∀ c ∈ moved.2.registry.channels.entries, c.id = target → c.members.count who = 1) ∧
        Registry.join target who (registry.unseat who p) = .ok () moved.2.registry) := by
  intro registry joined moved
  have hsound : Registry.Sound registry := Registry.sound_of_reachable h
  have hseated : Registry.Seated registry := Registry.seated_of_reachable h
  have hjoin := hsound.join_effect hseated target who
  have hmove {p : Player} (hp : registry.players.get? who = some p) :=
    hsound.move_effect hseated hp target
  refine ⟨fun c hc => hsound.exists_isFull hc, done_iff hjoin rfl, snd_step_of_done hjoin rfl,
    ?_, ?_⟩
  · cases hp : registry.players.get? who with
    | none =>
        obtain ⟨fault, herror⟩ := @Registry.move_refused registry who target (.inl hp)
        have hmoved : moved.1 = .error fault := congrArg Prod.fst (step_of_error herror rfl)
        rw [hmoved]
        exact iff_of_false nofun nofun
    | some p =>
        refine (done_iff (hmove hp) rfl).trans ⟨?_, ?_⟩
        · exact fun ⟨c, hc, hroom⟩ => ⟨p, c, rfl, hc, hroom⟩
        · rintro ⟨p', c, ⟨⟩, hc, hroom⟩
          exact ⟨c, hc, hroom⟩
  · intro p hp hdone
    have hafter : moved.2 = _ := snd_step_of_done (hmove hp) rfl hdone
    refine ⟨fun hthere => ?_, fun hne => ?_⟩
    · rw [hafter, if_pos hthere]
    · rw [if_neg hne] at hafter
      obtain ⟨c, hc, hroom⟩ := (done_iff (hmove hp) rfl).mp hdone
      have hfree := hroom.resolve_left hne
      refine ⟨hafter, fun d hd hid => ?_, ?_⟩
      · have hlisted : who ∈ d.members :=
          Registry.mem_members_withMove (by rw [hafter] at hd; exact hd) hid
        have hreachable := h.step (.move who target)
        have hids := (Registry.forest_of_reachable hreachable).distinct
        have honce := Registry.listedOnce_of_reachable hreachable d.id d (Slots.get?_of_mem hids hd)
        exact List.count_eq_one_of_mem honce hlisted
      · rw [hafter]
        exact hsound.join_of_unseat hseated hp hc hne hfree

/-- A player is on the lists of two channels and moves from the one to the other.  Nobody gets into a
channel for no members. -/
theorem membership_of_stale_guest :
    let session := (start (.empty {})).run .none
      [.importBatch
        [⟨⟨1⟩, none, { Metadata.preset with capacity := .limited 0 }⟩,
          ⟨⟨2⟩, none, { Metadata.preset with capacity := .limited 2 }⟩, ⟨⟨3⟩, none, .preset⟩],
        .addPlayer (.guest "a" "m") 1, .join ⟨2⟩ ⟨1⟩, .join ⟨3⟩ ⟨1⟩]
    let moved := session.step .none (.move ⟨1⟩ ⟨2⟩)
    moved.1 = .ok .done ∧
      moved.2 = { session with registry := session.registry.withMove ⟨1⟩ (some ⟨3⟩) ⟨2⟩ } ∧
      (session.step .none (.join ⟨1⟩ ⟨1⟩)).1 ≠ .ok .done := by
  intro session moved
  have hreachable : Reachable .none {} session := .step _ (.step _ (.step _ (.step _ .start)))
  let guest : Player :=
    { Registry.arrival ⟨1⟩ (.guest "a" "m") 1 with channel := some ⟨3⟩ }
  have hguest : session.registry.players.get? ⟨1⟩ = some guest := by decide +kernel
  let closed : Channel := { id := ⟨1⟩, info := { Metadata.preset with capacity := .limited 0 } }
  have hclosed : session.registry.channels.get? ⟨1⟩ = some closed := by decide +kernel
  let pair : Channel :=
    { id := ⟨2⟩, info := { Metadata.preset with capacity := .limited 2 }, members := [⟨1⟩] }
  have hpair : session.registry.channels.get? ⟨2⟩ = some pair := by decide +kernel
  have hroom : ¬ session.registry.Full pair := by
    rintro ⟨-, max, hmax, hle⟩
    cases hmax
    exact absurd hle (by decide)
  have hfull : session.registry.Full closed := by
    refine ⟨fun hdefault => ?_, 0, rfl, Nat.le_refl _⟩
    have hnone : session.registry.defaultChannel.toOption = none := by decide +kernel
    rw [hdefault] at hnone
    cases hnone
  obtain ⟨-, -, -, hmove, hmoved⟩ := membership_of_reachable hreachable ⟨1⟩ ⟨2⟩
  obtain ⟨-, hjoin, -⟩ := membership_of_reachable hreachable ⟨1⟩ ⟨1⟩
  have hdone : moved.1 = .ok .done := hmove.mpr ⟨guest, pair, hguest, hpair, .inr hroom⟩
  refine ⟨hdone, ((hmoved guest hguest hdone).2 (by decide)).1, fun hjoined => ?_⟩
  obtain ⟨_, c, -, hc, hlisted⟩ := hjoin.mp hjoined
  cases hclosed.symm.trans hc
  rcases hlisted with hlisted | hnot
  · cases hlisted
  · exact hnot hfull

end Session

end ChannelServer
